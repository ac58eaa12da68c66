/-
Tessivum.Session.SurfaceTheorems — conservation of the derived surface.

Over the whole log the surface is a list grown by edits: a surface event
appends its message or replaces a range of positions by it, and every
other event leaves the surface alone. `surfaceEdit` reads the edit off
an event, `Accepted.surface_eq_current` says that the surface the
session derives is the list of that edit history, and the library's
conservation results then speak about the session's log.

`surface_conservation` is the statement in the log's own terms: which
events are on the surface, which Replace event removed the others, and
how long the surface is.
-/
import Tessivum.Library.EditHistory
import Tessivum.Protocol.Wire
import Tessivum.Session.LogTheorems
import Tessivum.Session.Store

namespace Tessivum.Session

open Library Protocol List

variable {S : Serde} {header : SessionHeader}

/-! ## The edit of an event -/

def editOf (m : SurfaceMessage) : SurfaceOp → Edit SurfaceMessage
  | .append => .append m
  | .replace start stop => .replace start stop m

def surfaceEdit (S : Serde) (e : SessionEvent) : Option (Edit SurfaceMessage) :=
  match decodeSurfaceEvent S e with
  | .ok (some m) => e.surfaceOp.map (editOf m)
  | _ => none

/-- The event types of the surface are those with a role. -/
theorem isSurfaceEventType_iff {eventType : String} :
    isSurfaceEventType eventType = true ↔ ∃ role, expectedRole eventType = some role := by
  unfold isSurfaceEventType expectedRole
  by_cases h₁ : eventType = "user/message"
  · simp [h₁]
  · by_cases h₂ : eventType = "assistant/message"
    · simp [h₂]
    · by_cases h₃ : eventType = "tool/result"
      · simp [h₃]
      · simp [h₁, h₂, h₃]

variable {e : SessionEvent} {m : SurfaceMessage} {projection : Option SurfaceMessage}
  {op : SurfaceOp} {edit : Edit SurfaceMessage} {log : List SessionEvent} {state : SessionState}

theorem decodeSurfaceEvent_some (h : decodeSurfaceEvent S e = .ok (some m)) :
    isSurfaceEventType e.eventType = true ∧ m.eventSeq = e.seq
      ∧ m.sourceEventSeqs = e.sourceEventSeqs := by
  unfold decodeSurfaceEvent at h
  cases hrole : expectedRole e.eventType with
  | none => rw [hrole] at h; cases h
  | some role =>
    rw [hrole] at h
    simp only [bind_eq_ok, exists_unit] at h
    obtain ⟨_, _, _, _, _, h⟩ := h
    cases h
    exact ⟨isSurfaceEventType_iff.mpr ⟨role, hrole⟩, rfl, rfl⟩

theorem decodeSurfaceEvent_isSome (h : decodeSurfaceEvent S e = .ok projection)
    (hs : isSurfaceEventType e.eventType = true) : ∃ m, projection = some m := by
  obtain ⟨_, hrole⟩ := isSurfaceEventType_iff.mp hs
  unfold decodeSurfaceEvent at h
  rw [hrole] at h
  simp only [bind_eq_ok, exists_unit] at h
  obtain ⟨_, _, _, _, _, h⟩ := h
  cases h
  exact ⟨_, rfl⟩

theorem isSurfaceEventType_of_surfaceOp (h : e.validate S = .ok ()) (hop : e.surfaceOp = some op) :
    isSurfaceEventType e.eventType = true := by
  obtain ⟨_, _, _, _, _, hmeta⟩ := SessionEvent.validate_eq_ok.mp h
  unfold validateSurfaceMetadata at hmeta
  by_contra hs
  rw [if_neg hs, failIf_eq_ok, hop] at hmeta
  exact hmeta (.inl rfl)

/-- The operation of an event on the surface is the edit it stands for. -/
theorem applySurfaceOperation_eq_editStep (h : decodeSurfaceEvent S e = .ok projection)
    (surface : List SurfaceMessage) :
    applySurfaceOperation e projection surface = editStep surface (surfaceEdit S e) := by
  unfold surfaceEdit
  rw [h]
  cases projection with
  | none => rfl
  | some m =>
    cases hop : e.surfaceOp with
    | none => simp [applySurfaceOperation, hop, editStep]
    | some op =>
      cases op <;> simp [applySurfaceOperation, hop, editStep, editOf, Edit.apply, splice]

theorem surfaceEdit_eq_some (h : surfaceEdit S e = some edit) :
    decodeSurfaceEvent S e = .ok (some edit.item)
      ∧ ((edit = .append edit.item ∧ e.surfaceOp = some .append)
        ∨ ∃ start stop, edit = .replace start stop edit.item
            ∧ e.surfaceOp = some (.replace start stop)) := by
  unfold surfaceEdit at h
  cases hdecode : decodeSurfaceEvent S e with
  | error err => rw [hdecode] at h; cases h
  | ok projection =>
    rw [hdecode] at h
    cases projection with
    | none => cases h
    | some m =>
      cases hop : e.surfaceOp with
      | none => rw [hop] at h; cases h
      | some op =>
        rw [hop] at h
        cases op with
        | append => cases h; exact ⟨rfl, .inl ⟨rfl, rfl⟩⟩
        | replace start stop => cases h; exact ⟨rfl, .inr ⟨start, stop, rfl, rfl⟩⟩

theorem fits_of_validateSurfaceOperation {surface : List SurfaceMessage}
    (hdecode : decodeSurfaceEvent S e = .ok projection)
    (h : validateSurfaceOperation e projection surface = .ok ())
    (hedit : surfaceEdit S e = some edit) : edit.Fits surface := by
  obtain ⟨hm, hop⟩ := surfaceEdit_eq_some hedit
  have hprojection : projection = some edit.item := ok.inj (hdecode.symm.trans hm)
  rcases hop with ⟨hshape, _⟩ | ⟨start, stop, hshape, hreplace⟩
  · rw [hshape]
    trivial
  · rw [hprojection, validateSurfaceOperation, hreplace, failIf_eq_ok] at h
    rw [hshape]
    constructor <;> omega

/-! ## The history of a log -/

def surfaceHistory (S : Serde) (log : List SessionEvent) : List (Option (Edit SurfaceMessage)) :=
  log.map (surfaceEdit S)

/-- The derived surface is the list of the edit history, and every edit
fits. -/
theorem Accepted.surface_eq_current : ∀ {state : SessionState},
    Accepted S header log state →
      state.surface = current (surfaceHistory S log) ∧ Fitting (surfaceHistory S log) := by
  induction log using reverseRecOn with
  | nil =>
    intro state h
    cases h
    exact ⟨rfl, fun i e hi => by simp [surfaceHistory] at hi⟩
  | append_singleton log e ih =>
    intro state h
    obtain ⟨mid, hmid, hstep⟩ := accepted_snoc.mp h
    obtain ⟨hsurface, hfits⟩ := ih hmid
    obtain ⟨_, _, _, _, projection, hdecode, hop, rfl⟩ := replayEvent_eq_ok.mp hstep
    have hhistory : surfaceHistory S (log ++ [e]) = surfaceHistory S log ++ [surfaceEdit S e] := by
      simp [surfaceHistory]
    rw [hhistory]
    constructor
    · rw [current_snoc, SessionState.record_surface, hsurface,
        applySurfaceOperation_eq_editStep hdecode]
    · intro i edit hi
      by_cases hlt : i < (surfaceHistory S log).length
      · rw [getElem?_append_left hlt] at hi
        rw [before_append (le_of_lt hlt)]
        exact hfits i edit hi
      · rw [getElem?_append_right (Nat.le_of_not_lt hlt)] at hi
        obtain ⟨hlen, hlast⟩ := List.getElem?_eq_some_iff.mp hi
        simp only [length_singleton, Nat.lt_one_iff] at hlen
        simp only [hlen, getElem_singleton] at hlast
        have hi' : i = (surfaceHistory S log).length := by omega
        rw [hi', before_append (le_refl _), before_length, ← hsurface]
        exact fits_of_validateSurfaceOperation hdecode hop hlast

theorem items_seqs_sublist (S : Serde) : ∀ log : List SessionEvent,
    (surfaceSeqs (items (surfaceHistory S log))).Sublist (log.map SessionEvent.seq)
  | [] => List.Sublist.refl _
  | e :: rest => by
    have ih := items_seqs_sublist S rest
    cases hedit : surfaceEdit S e with
    | none =>
      simp only [surfaceHistory, items, surfaceSeqs, map_cons, filterMap_cons,
        hedit, map_none] at ih ⊢
      exact ih.cons e.seq
    | some edit =>
      have hseq := (decodeSurfaceEvent_some (surfaceEdit_eq_some hedit).1).2.1
      simp only [surfaceHistory, items, surfaceSeqs, map_cons, filterMap_cons,
        hedit, map_some] at ih ⊢
      rw [hseq]
      exact ih.cons_cons e.seq

theorem Numbered.map_seq (h : Numbered log) : log.map SessionEvent.seq = List.range log.length := by
  refine ext_getElem (by simp) fun i hi _ => ?_
  rw [length_map] at hi
  rw [getElem_map, getElem_range]
  exact h i log[i] (getElem?_eq_getElem hi)

section

variable (h : Accepted S header log state)

include h

theorem Accepted.items_seqs_nodup :
    (surfaceSeqs (items (surfaceHistory S log))).Nodup := by
  refine (items_seqs_sublist S log).nodup ?_
  rw [h.numbered.map_seq]
  exact nodup_range

theorem Accepted.items_nodup :
    (items (surfaceHistory S log)).Nodup :=
  List.Nodup.of_map _ h.items_seqs_nodup

theorem Accepted.eq_of_eventSeq {m' : SurfaceMessage}
    (hm : m ∈ items (surfaceHistory S log)) (hm' : m' ∈ items (surfaceHistory S log))
    (hseq : m.eventSeq = m'.eventSeq) : m = m' :=
  inj_on_of_nodup_map h.items_seqs_nodup hm hm' hseq

theorem Accepted.surfaceSeqs_nodup :
    (surfaceSeqs state.surface).Nodup := by
  obtain ⟨hsurface, hfits⟩ := h.surface_eq_current
  rw [hsurface]
  refine List.Nodup.map_on ?_ (nodup_current hfits h.items_nodup)
  intro x hx y hy hseq
  exact h.eq_of_eventSeq (mem_items_of_mem_current hfits hx)
    (mem_items_of_mem_current hfits hy) hseq

end

/-! ## The log's own terms -/

/-- The surface the event at position `j` of a log meets. -/
def surfaceBefore (S : Serde) (header : SessionHeader) (log : List SessionEvent) (j : Nat) :
    List SurfaceMessage :=
  match (log.take j).foldlM (replayEvent S header) (.empty (header.seedLength.getD 0)) with
  | .ok state => state.surface
  | .error _ => []

/-- The event at position `j` is a Replace whose range covers the
position of `m` on the surface it meets. -/
def ReplacedAt (S : Serde) (header : SessionHeader) (log : List SessionEvent) (j : Nat)
    (m : SurfaceMessage) : Prop :=
  ∃ e start stop, log[j]? = some e ∧ e.surfaceOp = some (.replace start stop)
    ∧ ∃ p, start ≤ p ∧ p < stop ∧ (surfaceBefore S header log j)[p]? = some m

def appendCount (log : List SessionEvent) : Nat :=
  log.countP fun e => e.surfaceOp = some .append

def replaceWidths (log : List SessionEvent) : List Nat :=
  log.filterMap fun e =>
    match e.surfaceOp with
    | some (.replace start stop) => some (stop - start)
    | _ => none

section

variable (h : Accepted S header log state)

include h

theorem Accepted.surfaceBefore_eq (j : Nat) :
    surfaceBefore S header log j = before (surfaceHistory S log) j := by
  obtain ⟨_, hmid⟩ := h.take j
  have hsurface := hmid.surface_eq_current.1
  unfold Accepted at hmid
  rw [surfaceBefore, hmid, before]
  simp only [hsurface, surfaceHistory, map_take]

theorem Accepted.surfaceEdit_of_surfaceOp (he : e ∈ log)
    (hop : e.surfaceOp = some op) :
    ∃ m, decodeSurfaceEvent S e = .ok (some m) ∧ surfaceEdit S e = some (editOf m op) := by
  obtain ⟨hvalid, _, hdecode⟩ := h.event e he
  have hs := isSurfaceEventType_of_surfaceOp hvalid hop
  obtain ⟨m, rfl⟩ := decodeSurfaceEvent_isSome hdecode hs
  refine ⟨m, hdecode, ?_⟩
  unfold surfaceEdit
  rw [hdecode, hop]
  rfl

/-- Which events a replacement has taken off the surface. -/
theorem Accepted.replacedAt_iff {j : Nat} :
    ReplacedAt S header log j m ↔ m ∈ removedAt (surfaceHistory S log) j := by
  unfold ReplacedAt removedAt
  rw [h.surfaceBefore_eq j]
  constructor
  · rintro ⟨e, start, stop, he, hop, hp⟩
    obtain ⟨m', _, hedit⟩ := h.surfaceEdit_of_surfaceOp (mem_of_getElem? he) hop
    have hentry : (surfaceHistory S log)[j]? = some (some (.replace start stop m')) := by
      simp [surfaceHistory, he, hedit, editOf]
    rw [hentry]
    exact mem_slice.mpr hp
  · intro hm
    cases he : log[j]? with
    | none =>
      have hentry : (surfaceHistory S log)[j]? = none := by simp [surfaceHistory, he]
      rw [hentry] at hm
      cases hm
    | some e =>
      have hentry : (surfaceHistory S log)[j]? = some (surfaceEdit S e) := by
        simp [surfaceHistory, he]
      rw [hentry] at hm
      cases hedit : surfaceEdit S e with
      | none => rw [hedit] at hm; cases hm
      | some edit =>
        rw [hedit] at hm
        rcases (surfaceEdit_eq_some hedit).2 with ⟨hshape, _⟩ | ⟨start, stop, hshape, hop⟩
        · rw [hshape] at hm
          cases hm
        · rw [hshape] at hm
          exact ⟨e, start, stop, rfl, hop, mem_slice.mp hm⟩

theorem Accepted.filter_eq_singleton (hm : m ∈ state.surface) :
    (state.surface.filter fun x => x.eventSeq = m.eventSeq) = [m] := by
  obtain ⟨hsurface, hfits⟩ := h.surface_eq_current
  have hnodup : state.surface.Nodup := by
    rw [hsurface]
    exact nodup_current hfits h.items_nodup
  have hmem : ∀ x ∈ state.surface, x ∈ items (surfaceHistory S log) := by
    intro x hx
    rw [hsurface] at hx
    exact mem_items_of_mem_current hfits hx
  have hfilter : (state.surface.filter fun x => x.eventSeq = m.eventSeq)
      = state.surface.filter fun x => x = m := by
    refine filter_congr fun x hx => ?_
    have hiff : x.eventSeq = m.eventSeq ↔ x = m :=
      ⟨fun hseq => h.eq_of_eventSeq (hmem x hx) (hmem m hm) hseq, fun heq => by rw [heq]⟩
    simp [hiff]
  rw [hfilter, filter_eq, count_eq_one_of_mem hnodup hm]
  rfl

end

theorem growth_sum (S : Serde) : ∀ log : List SessionEvent,
    (∀ e ∈ log, ∀ op, e.surfaceOp = some op → ∃ m, surfaceEdit S e = some (editOf m op)) →
    ((surfaceHistory S log).map fun e => (e.map Edit.growth).getD 0).sum
      = (appendCount log : Int) + ((replaceWidths log).map fun w => 1 - (w : Int)).sum
  | [], _ => rfl
  | e :: rest, h => by
    have ih := growth_sum S rest fun x hx => h x (mem_cons_of_mem e hx)
    unfold surfaceHistory appendCount replaceWidths at ih ⊢
    rw [map_cons, map_cons, sum_cons, ih, countP_cons, filterMap_cons]
    cases hop : e.surfaceOp with
    | none =>
      have hedit : surfaceEdit S e = none := by
        unfold surfaceEdit
        rw [hop]
        split <;> rfl
      rw [hedit]
      simp
    | some op =>
      obtain ⟨m, hedit⟩ := h e mem_cons_self op hop
      rw [hedit]
      cases op with
      | append | replace start stop =>
        simp only [editOf, map_some, Edit.growth, getD_some]
        simp
        omega

/-! ## Conservation -/

/-- Surface conservation. On the surface of an accepted log no two
entries share an event number; every surface event is either there,
once, with exactly its decoded message, and no Replace ever covered it,
or exactly one later Replace covered it and it is on no later surface;
and the surface is as long as the appends and the replaced widths say. -/
theorem surface_conservation (S : Serde) (header : SessionHeader) (log : List SessionEvent)
    (state : SessionState) (h : buildState S header log = .ok state) :
    (surfaceSeqs state.surface).Nodup
    ∧ (∀ i e, log[i]? = some e → isSurfaceEventType e.eventType = true →
        ∃ m, decodeSurfaceEvent S e = .ok (some m)
          ∧ (((state.surface.filter fun x => x.eventSeq = e.seq) = [m]
                ∧ ∀ j, ¬ ReplacedAt S header log j m)
            ∨ (e.seq ∉ surfaceSeqs state.surface
                ∧ ∃ j, i < j ∧ ReplacedAt S header log j m
                  ∧ (∀ j', ReplacedAt S header log j' m → j' = j)
                  ∧ ∀ k, j < k → e.seq ∉ surfaceSeqs (surfaceBefore S header log k))))
    ∧ (state.surface.length : Int)
        = appendCount log + ((replaceWidths log).map fun w => 1 - (w : Int)).sum := by
  have hacc := accepted_of_buildState h
  obtain ⟨hsurface, hfits⟩ := hacc.surface_eq_current
  have hnodup := hacc.items_nodup
  refine ⟨?_, ?_, ?_⟩
  · exact hacc.surfaceSeqs_nodup
  · intro i e hi hs
    obtain ⟨hvalid, _⟩ := hacc.event e (mem_of_getElem? hi)
    obtain ⟨op, hop⟩ := SessionEvent.surfaceOp_of_validate hvalid hs
    obtain ⟨m, hdecode, hedit⟩ := hacc.surfaceEdit_of_surfaceOp (mem_of_getElem? hi) hop
    have hseq := (decodeSurfaceEvent_some hdecode).2.1
    have hitem : (editOf m op).item = m := by cases op <;> rfl
    have hentry : (surfaceHistory S log)[i]? = some (some (editOf m op)) := by
      simp [surfaceHistory, hi, hedit]
    have hmem : m ∈ items (surfaceHistory S log) :=
      mem_filterMap.mpr ⟨some (editOf m op), mem_of_getElem? hentry, by
        rw [map_some, hitem]⟩
    -- an entry with this number, wherever it stands, is `m` itself
    have hsame : ∀ k, e.seq ∈ surfaceSeqs (before (surfaceHistory S log) k) →
        m ∈ before (surfaceHistory S log) k := by
      intro k hk
      obtain ⟨x, hx, hxseq⟩ := mem_map.mp hk
      have hxitems := mem_items_of_mem_current (hfits.take k) hx
      have hxmem : x ∈ items (surfaceHistory S log) := by
        rw [← take_append_drop k (surfaceHistory S log), items_append]
        exact mem_append_left _ hxitems
      rw [← hacc.eq_of_eventSeq hxmem hmem (hxseq.trans hseq.symm)]
      exact hx
    refine ⟨m, hdecode, ?_⟩
    rcases mem_current_or_removed hfits hmem with hcur | ⟨j, hj⟩
    · left
      refine ⟨?_, fun j hj => ?_⟩
      · rw [← hsurface] at hcur
        rw [← hseq]
        exact hacc.filter_eq_singleton hcur
      · exact not_mem_current_of_removed hfits hnodup (hacc.replacedAt_iff.mp hj) hcur
    · right
      refine ⟨?_, j, ?_, hacc.replacedAt_iff.mpr hj, ?_, ?_⟩
      · intro hmemSeq
        rw [hsurface, ← before_length] at hmemSeq
        have hback := hsame _ hmemSeq
        rw [before_length] at hback
        exact not_mem_current_of_removed hfits hnodup hj hback
      · rw [← hitem] at hj
        exact lt_of_mem_removedAt hfits hnodup hentry hj
      · intro j' hj'
        exact removedAt_unique hfits hnodup (hacc.replacedAt_iff.mp hj') hj
      · intro k hjk hmemSeq
        rw [hacc.surfaceBefore_eq k] at hmemSeq
        exact not_mem_before_of_removed hfits hnodup hj hjk (hsame k hmemSeq)
  · rw [hsurface, length_current _ hfits]
    refine growth_sum S log fun e he op hop => ?_
    obtain ⟨m, _, hedit⟩ := hacc.surfaceEdit_of_surfaceOp he hop
    exact ⟨m, hedit⟩

/-- Three user messages, the third in place of the first. -/
theorem surface_conservation_replace :
    let message (id : String) := wireSerde.messageToValue
      { id := ⟨id⟩, role := .user, content := [.text id], source := .user none }
    let appended (seq : Nat) (id : String) : SessionEvent :=
      { SessionEvent.plain "user/message" seq 1 (message id) with surfaceOp := some .append }
    let log := [appended 0 "a", appended 1 "b",
      { appended 2 "c" with surfaceOp := some (.replace 0 1), sourceEventSeqs := some [0] }]
    ∃ state, buildState wireSerde (.plain ⟨"s"⟩ 1) log = .ok state
      ∧ surfaceSeqs state.surface = [2, 1] ∧ (surfaceSeqs state.surface).Nodup := by
  intro message appended log
  refine ⟨_, rfl, rfl, ?_⟩
  exact (surface_conservation wireSerde (.plain ⟨"s"⟩ 1) log _ rfl).1

end Tessivum.Session
