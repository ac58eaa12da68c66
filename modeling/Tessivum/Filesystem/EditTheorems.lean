/-
Tessivum.Filesystem.EditTheorems — what a literal edit does to a text.

§1 says what `normalizeLf` computes: `lfLines`, the text with each of the
three line ends written as a line feed. §2 brings `editTexts` to the scan of
the normalised texts. §3 compares it with what `FsLiteralEdit` says of itself,
"a literal, exactly-once text edit": the matches it counts do not overlap, so a
text whose only occurrences all overlap one another counts as one match
(`exactlyOnce_iff`).
-/
import Tessivum.Filesystem.Edit

namespace Tessivum.Filesystem

open Library Library.Search Protocol List

/-! ## §1 Line ends -/

/-- A text with `\r\n`, and any other `\r`, written as `\n`. -/
def lfLines : List Char → List Char
  | [] => []
  | '\r' :: '\n' :: rest => '\n' :: lfLines rest
  | c :: rest => (if c = '\r' then '\n' else c) :: lfLines rest

def crlfLines : List Char → List Char
  | [] => []
  | '\r' :: '\n' :: rest => '\n' :: crlfLines rest
  | c :: rest => c :: crlfLines rest

theorem crlfLines_replaced (text : List Char) :
    Replaced ['\r', '\n'] ['\n'] text (crlfLines text) := by
  fun_induction crlfLines text with
  | case1 =>
    refine .none fun n hn => ?_
    have hfit := hn.le
    simp at hfit
  | case2 rest ih => exact ih.swap
  | case3 c rest hnot ih =>
    refine ih.keep ?_
    rintro ⟨tail, htail⟩
    injection htail with hc hrest
    exact hnot tail hc.symm hrest.symm

theorem replaced_single {old new : Char} (text : List Char) :
    Replaced [old] [new] text (text.map fun c => if c = old then new else c) := by
  induction text with
  | nil =>
    refine .none fun n hn => ?_
    have hfit := hn.le
    simp at hfit
  | cons c text ih =>
    rw [map_cons]
    by_cases hc : c = old
    · subst hc
      rw [if_pos rfl]
      exact ih.swap
    · rw [if_neg hc]
      refine ih.keep ?_
      rintro ⟨_, htail⟩
      injection htail with hold _
      exact hc hold.symm

theorem lfLines_eq_map (text : List Char) :
    lfLines text = (crlfLines text).map fun c => if c = '\r' then '\n' else c := by
  fun_induction crlfLines text with
  | case1 => rfl
  | case2 rest ih => simp [lfLines, ih]
  | case3 c rest hnot ih =>
    rw [lfLines, ih, map_cons]
    exact hnot

variable {text content path : String} {edit : FsLiteralEdit} {texts : EditTexts}
  {pattern : List Char}

theorem replace_eq_iff {pattern new : String} {result : List Char} (hne : pattern.toList ≠ []) :
    Replaced pattern.toList new.toList text.toList result ↔
      result = (replace text pattern new).toList := by
  rw [splice_scan_iff hne, replace, replaceAt, matchIndices, String.toList_ofList]

theorem normalizeLf_toList (text : String) :
    (normalizeLf text).toList = lfLines text.toList := by
  have hcrlf : crlfLines text.toList = (replace text "\r\n" "\n").toList :=
    (replace_eq_iff (by decide)).mp (crlfLines_replaced _)
  have hcr : (replace text "\r\n" "\n").toList.map (fun c => if c = '\r' then '\n' else c) =
      (replace (replace text "\r\n" "\n") "\r" "\n").toList :=
    (replace_eq_iff (by decide)).mp (replaced_single _)
  rw [normalizeLf, ← hcr, ← hcrlf, lfLines_eq_map]

/-! ## §2 Edits -/

/-- The texts of an edit that goes through: the expected text occurs, once
where it has to. -/
theorem editTexts_ok {replaceAll : Bool} :
    editTexts path edit replaceAll content = .ok texts ↔
      normalizeLf edit.expected ≠ "" ∧
      matchIndices (normalizeLf content) (normalizeLf edit.expected) ≠ [] ∧
      (replaceAll = false →
        (matchIndices (normalizeLf content) (normalizeLf edit.expected)).length = 1) ∧
      texts.before = normalizeLf content ∧
      texts.after = replaceAt (normalizeLf content) (normalizeLf edit.expected)
        (normalizeLf edit.replacement)
        (matchIndices (normalizeLf content) (normalizeLf edit.expected)) := by
  unfold editTexts
  simp only [check_bind_eq_ok, failIf_eq_ok, pure_eq_ok, ok.injEq]
  generalize hfound : matchIndices (normalizeLf content) (normalizeLf edit.expected) = found
  have hsome : found.length = 0 ↔ found = [] := length_eq_zero_iff
  cases replaceAll with
  | false =>
    rw [replacen, replace, hfound]
    constructor
    · rintro ⟨hne, hsome', hone, rfl⟩
      have hlen : found.length = 1 := by simpa using hone
      refine ⟨hne, fun h => hsome' (hsome.mpr h), fun _ => hlen, rfl, ?_⟩
      rw [if_neg Bool.false_ne_true, take_of_length_le hlen.le]
    · rintro ⟨hne, hsome', hone, hbefore, hafter⟩
      refine ⟨hne, fun h => hsome' (hsome.mp h), fun h => h.2 (hone rfl), ?_⟩
      rw [if_neg Bool.false_ne_true, take_of_length_le (hone rfl).le, ← hafter,
        ← hbefore]
  | true =>
    rw [replace, hfound]
    constructor
    · rintro ⟨hne, hsome', -, rfl⟩
      exact ⟨hne, fun h => hsome' (hsome.mpr h), fun h => absurd h (by decide), rfl, rfl⟩
    · rintro ⟨hne, hsome', -, hbefore, hafter⟩
      refine ⟨hne, fun h => hsome' (hsome.mp h), fun h => absurd h.1 (by decide), ?_⟩
      rw [if_pos rfl, ← hafter, ← hbefore]

theorem eq_iff_toList {other : String} : text = other ↔ text.toList = other.toList :=
  ⟨fun h => h ▸ rfl, fun h => String.toList_injective h⟩

theorem editTexts_once :
    editTexts path edit false content = .ok texts ↔
      lfLines edit.expected.toList ≠ [] ∧ texts.before.toList = lfLines content.toList ∧
      ∃ m, scan (lfLines edit.expected.toList) 0 0 (lfLines content.toList) = [m] ∧
        texts.after.toList = (lfLines content.toList).take m ++ lfLines edit.replacement.toList ++
          (lfLines content.toList).drop (m + (lfLines edit.expected.toList).length) := by
  rw [editTexts_ok]
  simp only [ne_eq, eq_iff_toList, matchIndices, replaceAt, String.toList_ofList,
    normalizeLf_toList, forall_const]
  constructor
  · rintro ⟨hne, -, hone, hbefore, hafter⟩
    obtain ⟨m, hm⟩ := length_eq_one_iff.mp hone
    refine ⟨hne, hbefore, m, hm, ?_⟩
    rw [hafter, hm, splice_single]
  · rintro ⟨hne, hbefore, m, hm, hafter⟩
    rw [hm, splice_single]
    exact ⟨hne, cons_ne_nil _ _, rfl, hbefore, hafter⟩

theorem editTexts_all :
    editTexts path edit true content = .ok texts ↔
      lfLines edit.expected.toList ≠ [] ∧ texts.before.toList = lfLines content.toList ∧
      (∃ n, Occurs (lfLines edit.expected.toList) (lfLines content.toList) n) ∧
      Replaced (lfLines edit.expected.toList) (lfLines edit.replacement.toList)
        (lfLines content.toList) texts.after.toList := by
  rw [editTexts_ok]
  simp only [ne_eq, eq_iff_toList, matchIndices, replaceAt, String.toList_ofList,
    normalizeLf_toList]
  generalize hpattern : lfLines edit.expected.toList = pattern
  generalize lfLines content.toList = text
  by_cases hempty : pattern = []
  · subst hempty
    exact ⟨fun h => absurd rfl h.1, fun h => absurd rfl h.1⟩
  · have hfound : ¬ scan pattern 0 0 text = [] ↔ ∃ n, Occurs pattern text n := by
      rw [(scan_leftmost hempty text).eq_nil_iff]
      simp
    rw [hfound, splice_scan_iff hempty]
    constructor
    · rintro ⟨hne, hoccurs, -, hbefore, hafter⟩
      exact ⟨hne, hbefore, hoccurs, hafter⟩
    · rintro ⟨hne, hbefore, hoccurs, hafter⟩
      exact ⟨hne, hoccurs, fun h => absurd h (by decide), hbefore, hafter⟩

/-! ## §3 Exactly once -/

/-- The pattern stands between `front` and `rest`, and nowhere else. -/
def OnlyBetween (pattern text front rest : List Char) : Prop :=
  text = front ++ pattern ++ rest ∧ ∀ n, Occurs pattern text n → n = front.length

/-- An edit succeeds where its text occurs at exactly one position, and
replaces it there. -/
def ExactlyOnce (path : String) (edit : FsLiteralEdit) (content : String) : Prop :=
  ∀ texts, editTexts path edit false content = .ok texts ↔
    lfLines edit.expected.toList ≠ [] ∧ texts.before.toList = lfLines content.toList ∧
    ∃ front rest,
      OnlyBetween (lfLines edit.expected.toList) (lfLines content.toList) front rest ∧
      texts.after.toList = front ++ lfLines edit.replacement.toList ++ rest

/-- An edit of every match succeeds where its text occurs, and replaces the
matches from left to right. -/
def EveryMatch (path : String) (edit : FsLiteralEdit) (content : String) : Prop :=
  ∀ texts, editTexts path edit true content = .ok texts ↔
    lfLines edit.expected.toList ≠ [] ∧ texts.before.toList = lfLines content.toList ∧
    (∃ n, Occurs (lfLines edit.expected.toList) (lfLines content.toList) n) ∧
    Replaced (lfLines edit.expected.toList) (lfLines edit.replacement.toList)
      (lfLines content.toList) texts.after.toList

/-- A text that occurs at two positions occurs at two that do not overlap. -/
def Separate (pattern text : List Char) : Prop :=
  ∀ m n, Occurs pattern text m → Occurs pattern text n → m < n →
    ∃ m' n', Occurs pattern text m' ∧ Occurs pattern text n' ∧ m' + pattern.length ≤ n'

theorem single_of_separate {text : List Char} (hne : pattern ≠ []) (hsep : Separate pattern text)
    {m : Nat} :
    scan pattern 0 0 text = [m] ↔
      Occurs pattern text m ∧ ∀ n, Occurs pattern text n → n = m := by
  rw [(scan_leftmost hne text).eq_singleton_iff]
  have hpos : 0 < pattern.length := length_pos_iff.mpr hne
  constructor
  · rintro ⟨-, hm, hfirst, hlast⟩
    have hle : ∀ n, Occurs pattern text n → m ≤ n := fun n hn =>
      Nat.le_of_not_lt fun hlt => hfirst n (Nat.zero_le _) hlt hn
    refine ⟨hm, fun n hn => ?_⟩
    by_contra hother
    have hlt : m < n := Nat.lt_of_le_of_ne (hle n hn) (Ne.symm hother)
    obtain ⟨m', n', hm', hn', hgap⟩ := hsep m n hm hn hlt
    exact hlast n' (le_trans (Nat.add_le_add_right (hle m' hm') _) hgap) hn'
  · rintro ⟨hm, honly⟩
    refine ⟨Nat.zero_le _, hm, fun n _ hlt hn => ?_, fun n hle hn => ?_⟩
    · exact ne_of_lt hlt (honly n hn)
    · rw [honly n hn] at hle
      omega

theorem single_of_not_separate {text : List Char} (hne : pattern ≠ [])
    (hsep : ¬ Separate pattern text) :
    ∃ m, scan pattern 0 0 text = [m] ∧ ∃ n, Occurs pattern text n ∧ n ≠ m := by
  simp only [Separate, not_forall, not_exists, not_and, not_le] at hsep
  obtain ⟨a, b, ha, hb, hlt, hover⟩ := hsep
  cases hscan : scan pattern 0 0 text with
  | nil =>
    have hnone := (scan_leftmost hne text).eq_nil_iff.mp hscan
    exact absurd ha (hnone a (Nat.zero_le _))
  | cons m found =>
    have hleft := scan_leftmost hne text
    rw [hscan] at hleft
    cases hleft with
    | next _ hm _ hlater =>
      have hnil : found = [] := by
        rw [hlater.eq_nil_iff]
        intro n hle hn
        exact absurd (hover m n hm hn) (Nat.not_lt.mpr hle)
      subst hnil
      refine ⟨m, rfl, ?_⟩
      by_cases hma : a = m
      · exact ⟨b, hb, by omega⟩
      · exact ⟨a, ha, hma⟩

theorem editTexts_everyMatch (path : String) (edit : FsLiteralEdit) (content : String) :
    EveryMatch path edit content :=
  fun _ => editTexts_all

/-- An edit is the literal, exactly-once edit it is described as exactly where
the occurrences of its text, if there are several, do not all overlap. -/
theorem exactlyOnce_iff (path : String) (edit : FsLiteralEdit) (content : String) :
    (ExactlyOnce path edit content ∧ EveryMatch path edit content) ↔
      Separate (lfLines edit.expected.toList) (lfLines content.toList) := by
  rw [and_iff_left (editTexts_everyMatch path edit content)]
  unfold ExactlyOnce
  simp only [editTexts_once]
  generalize lfLines edit.expected.toList = pattern
  generalize lfLines content.toList = text
  generalize lfLines edit.replacement.toList = new
  constructor
  · intro honce
    by_contra hsep
    have hne : pattern ≠ [] := by
      rintro rfl
      exact hsep fun m n hm hn hlt => ⟨m, n, hm, hn, hlt.le⟩
    obtain ⟨m, hscan, n, hn, hother⟩ := single_of_not_separate hne hsep
    have hedit := (honce ⟨String.ofList text, String.ofList (text.take m ++ new ++
      text.drop (m + pattern.length))⟩).mp
        ⟨hne, String.toList_ofList, m, hscan, String.toList_ofList⟩
    obtain ⟨-, -, _, _, ⟨-, honly⟩, -⟩ := hedit
    have hm := ((scan_leftmost hne text).eq_singleton_iff.mp hscan).2.1
    exact hother ((honly n hn).trans (honly m hm).symm)
  · intro hsep texts
    refine and_congr_right fun hne => and_congr_right fun _ => ?_
    constructor
    · rintro ⟨m, hscan, hafter⟩
      obtain ⟨hm, honly⟩ := (single_of_separate hne hsep).mp hscan
      have hfit := hm.le
      have hlen : (text.take m).length = m := length_take_of_le (by omega)
      exact ⟨text.take m, text.drop (m + pattern.length),
        ⟨hm.split, fun n hn => (honly n hn).trans hlen.symm⟩, hafter⟩
    · rintro ⟨front, rest, ⟨rfl, honly⟩, hafter⟩
      refine ⟨front.length, ?_, by simpa using hafter⟩
      rw [single_of_separate hne hsep]
      exact ⟨⟨front, rest, rfl, rfl⟩, honly⟩

/-- `aa` occurs twice in `aaa`, and the edit of it succeeds. -/
theorem overlapping_edited :
    ¬ ∀ path edit content, ExactlyOnce path edit content ∧ EveryMatch path edit content := by
  intro h
  have hedit : editTexts "notes.txt" ⟨"aa", "b", none⟩ false "aaa" = .ok ⟨"aaa", "ba"⟩ := by
    decide
  have honce := (h "notes.txt" ⟨"aa", "b", none⟩ "aaa").1
  obtain ⟨-, -, front, rest, ⟨htext, honly⟩, -⟩ := (honce ⟨"aaa", "ba"⟩).mp hedit
  have hzero : 0 = front.length := honly 0 ⟨[], ['a'], by decide, rfl⟩
  have hone : 1 = front.length := honly 1 ⟨['a'], [], by decide, rfl⟩
  omega

end Tessivum.Filesystem
