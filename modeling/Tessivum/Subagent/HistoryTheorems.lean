/-
Tessivum.Subagent.HistoryTheorems — the pages of a child's log.

In a log numbered from `0` a page is a stretch of it: it starts at `0`
or where a message puts the cut, and it ends where the page before it
starts (`historyPage_stretch`, `cutoff_cases`). `Paged` says so of all
the pages a reader is given, and everything else about them is an
induction along it: nothing is in two pages, every page but the last
says that there is more, and with a limit for every event the reader is
given the whole log.

The cut takes account of one message, the one that makes the count full.
So a page keeps every message with the chunks it cites only when no
citation reaches across such a cut (`Uncut`).
-/
import Tessivum.Subagent.History

namespace Tessivum.Subagent

open Library Protocol Session List

/-! ## The cut -/

theorem foldl_min_le (l : List Nat) : ∀ n, l.foldl min n ≤ n := by
  induction l with
  | nil => exact fun n => le_refl n
  | cons k l ih =>
    intro n
    exact le_trans (ih (min n k)) (Nat.min_le_left n k)

theorem messageCut_le_seq (e : SessionEvent) : messageCut e ≤ e.seq :=
  foldl_min_le _ _

theorem cutoffFrom_cases (limit : Nat) (events : List SessionEvent) : ∀ messages,
    cutoffFrom limit messages events = 0
      ∨ ∃ m ∈ events, countsAsMessage m = true
        ∧ cutoffFrom limit messages events = messageCut m := by
  induction events with
  | nil => exact fun _ => .inl rfl
  | cons e rest ih =>
    intro messages
    have later : ∀ n, cutoffFrom limit n rest = 0
        ∨ ∃ m ∈ e :: rest, countsAsMessage m = true
          ∧ cutoffFrom limit n rest = messageCut m := by
      intro n
      rcases ih n with h | ⟨m, hm, h⟩
      · exact .inl h
      · exact .inr ⟨m, mem_cons_of_mem e hm, h⟩
    rw [cutoffFrom]
    split
    · rename_i hcounts
      split
      · exact .inr ⟨e, mem_cons_self, hcounts, rfl⟩
      · exact later _
    · exact later _

theorem exists_cutoffFrom {m : SessionEvent} (hcounts : countsAsMessage m = true)
    {events : List SessionEvent} (hm : m ∈ events) : ∀ messages,
    ∃ limit, messages < limit ∧ cutoffFrom limit messages events = messageCut m := by
  induction events with
  | nil => cases hm
  | cons e rest ih =>
    intro messages
    rcases mem_cons.mp hm with rfl | hm
    · refine ⟨messages + 1, lt_succ_self messages, ?_⟩
      rw [cutoffFrom, if_pos hcounts, if_pos rfl]
    · by_cases he : countsAsMessage e = true
      · obtain ⟨limit, hlt, hcut⟩ := ih hm (messages + 1)
        refine ⟨limit, by omega, ?_⟩
        rw [cutoffFrom, if_pos he, if_neg (by omega), hcut]
      · obtain ⟨limit, hlt, hcut⟩ := ih hm messages
        refine ⟨limit, hlt, ?_⟩
        rw [cutoffFrom, if_neg he, hcut]

def IsCut (log : List SessionEvent) (c : Nat) : Prop :=
  c = 0 ∨ ∃ m ∈ log, countsAsMessage m = true ∧ c = messageCut m

theorem cutoff_cases (log : List SessionEvent) (limit : Nat) :
    IsCut log (cutoff log (some limit)) := by
  rcases cutoffFrom_cases limit log.reverse 0 with h | ⟨m, hm, h⟩
  · exact .inl h
  · exact .inr ⟨m, mem_reverse.mp hm, h⟩

theorem exists_cutoff {log : List SessionEvent} {m : SessionEvent} (hm : m ∈ log)
    (hcounts : countsAsMessage m = true) :
    ∃ limit, 1 ≤ limit ∧ cutoff log (some limit) = messageCut m :=
  exists_cutoffFrom hcounts (mem_reverse.mpr hm) 0

/-! ## One page -/

variable {log : List SessionEvent}
variable {c d : Nat}

theorem mem_stretch_seq (hlog : Numbered log) {e : SessionEvent} :
    e ∈ stretch log c d ↔ e ∈ log ∧ c ≤ e.seq ∧ e.seq < d := by
  constructor
  · intro h
    obtain ⟨i, hge, hlt, hi⟩ := exists_of_mem_stretch h
    rw [hlog i e hi]
    exact ⟨mem_of_getElem? hi, hge, hlt⟩
  · rintro ⟨hmem, hge, hlt⟩
    exact mem_stretch (hlog.getElem?_seq hmem) hge hlt

theorem eventsBefore_eq (hlog : Numbered log) (beforeSeq : Option Nat) :
    eventsBefore log beforeSeq = log.take (beforeSeq.getD log.length) := by
  cases beforeSeq with
  | none => rw [getD_none, take_length]; rfl
  | some before => exact filter_seq_lt hlog before

theorem historyPage_stretch (hlog : Numbered log) (beforeSeq : Option Nat) (limit : Nat) :
    ∃ c, c = cutoff (log.take (beforeSeq.getD log.length)) (some limit)
      ∧ (historyPage log beforeSeq (some limit)).log
        = stretch log c (beforeSeq.getD log.length)
      ∧ ((historyPage log beforeSeq (some limit)).hasMore = true ↔ c ≠ 0) := by
  refine ⟨_, rfl, ?_, ?_⟩
  · simp only [historyPage, SubagentHistoryResult.log, eventsBefore_eq hlog, map_map]
    rw [filter_seq_ge (hlog.take (beforeSeq.getD log.length)), stretch]
    exact map_id _
  · simp only [historyPage, eventsBefore_eq hlog, decide_eq_true_eq]

theorem cutoff_lt (hlog : Numbered log) {b : Nat} (hb : 0 < b) (limit : Nat) :
    cutoff (log.take b) (some limit) < b := by
  rcases cutoff_cases (log.take b) limit with h | ⟨m, hm, _, h⟩
  · omega
  · have hlt := (hlog.take b).seq_lt_length hm
    have hle := messageCut_le_seq m
    rw [length_take] at hlt
    omega

theorem IsCut.of_take {b : Nat} (h : IsCut (log.take b) c) : IsCut log c := by
  rcases h with h | ⟨m, hm, h⟩
  · exact .inl h
  · exact .inr ⟨m, mem_of_mem_take hm, h⟩

theorem head?_stretch (hlog : Numbered log) (hlt : c < d) (hd : d ≤ log.length) :
    ((stretch log c d).head?.map fun e => e.seq) = some c := by
  have hget : log[c]? = some log[c] := getElem?_eq_getElem (by omega)
  rw [head?_eq_getElem?, getElem?_stretch log (by omega), Nat.add_zero, hget,
    map_some, hlog c _ hget]

theorem head?_page (page : SubagentHistoryResult) :
    (page.events.head?.map fun entry => entry.event.seq)
      = page.log.head?.map fun e => e.seq := by
  rw [SubagentHistoryResult.log, head?_map, Option.map_map]
  rfl

/-! ## A run of pages -/

/-- The pages a reader is given of the first `b` events, with `n` limits
to spend. -/
inductive Paged (log : List SessionEvent) : Nat → Nat → List SubagentHistoryResult → Prop
  | spent (b : Nat) : Paged log 0 b []
  | last {n b : Nat} {page : SubagentHistoryResult} (hpage : page.log = stretch log 0 b)
      (hmore : page.hasMore = false) (hb : b ≤ log.length) (hpos : 0 < b ∨ log = []) :
      Paged log (n + 1) b [page]
  | more {n b c : Nat} {page : SubagentHistoryResult} {rest : List SubagentHistoryResult}
      (hpage : page.log = stretch log c b) (hmore : page.hasMore = true) (hc : 0 < c)
      (hlt : c < b) (hb : b ≤ log.length) (hcut : IsCut log c) (hrest : Paged log n c rest) :
      Paged log (n + 1) b (page :: rest)

theorem pages_cons (limit : Nat) (limits : List Nat) (beforeSeq : Option Nat) :
    pages log (limit :: limits) beforeSeq =
      if (historyPage log beforeSeq (some limit)).hasMore then
        historyPage log beforeSeq (some limit) :: pages log limits
          ((historyPage log beforeSeq (some limit)).log.head?.map fun e => e.seq)
      else [historyPage log beforeSeq (some limit)] := by
  rw [pages, head?_page]

/-- The pages of every list of limits are paged. -/
theorem pages_paged (hlog : Numbered log) (limits : List Nat) : ∀ beforeSeq : Option Nat,
    beforeSeq.getD log.length ≤ log.length →
      (0 < beforeSeq.getD log.length ∨ log = []) →
        Paged log limits.length (beforeSeq.getD log.length) (pages log limits beforeSeq) := by
  induction limits with
  | nil => exact fun beforeSeq _ _ => .spent _
  | cons limit limits ih =>
    intro beforeSeq hb hpos
    obtain ⟨c, hc, hpage, hmore⟩ := historyPage_stretch hlog beforeSeq limit
    rw [pages_cons]
    by_cases hzero : c = 0
    · have hlast : (historyPage log beforeSeq (some limit)).hasMore = false := by
        rw [← not_eq_true, hmore, not_not]
        exact hzero
      rw [if_neg (by rw [hlast]; exact Bool.false_ne_true)]
      rw [hzero] at hpage
      exact .last hpage hlast hb hpos
    · have hlt : c < beforeSeq.getD log.length := by
        rcases hpos with hpos | rfl
        · rw [hc]
          exact cutoff_lt hlog hpos limit
        · rw [take_nil] at hc
          exact absurd hc hzero
      have hcut : IsCut log c := (hc ▸ cutoff_cases _ limit : IsCut _ c).of_take
      rw [if_pos (hmore.mpr hzero), hpage, head?_stretch hlog hlt hb]
      exact .more hpage (hmore.mpr hzero) (Nat.pos_of_ne_zero hzero) hlt hb hcut
        (ih (some c) (by rw [getD_some]; omega)
          (.inl (Nat.pos_of_ne_zero hzero)))

variable {n b : Nat} {run : List SubagentHistoryResult}

theorem Paged.page (h : Paged log n b run) {page : SubagentHistoryResult} (hmem : page ∈ run) :
    ∃ c d, page.log = stretch log c d ∧ (c < d ∨ log = []) ∧ d ≤ b ∧ b ≤ log.length
      ∧ IsCut log c ∧ (d = b ∨ IsCut log d) := by
  induction h with
  | spent b => cases hmem
  | @last n b page hpage hmore hb hpos =>
    rw [mem_singleton.mp hmem]
    exact ⟨0, b, hpage, hpos, le_refl b, hb, .inl rfl, .inl rfl⟩
  | @more n b c page rest hpage hmore hc hlt hb hcut hrest ih =>
    rcases mem_cons.mp hmem with rfl | hmem
    · exact ⟨c, b, hpage, .inl hlt, le_refl b, hb, hcut, .inl rfl⟩
    · obtain ⟨c', d', hpage', hlt', hd', _, hcut', hend⟩ := ih hmem
      refine ⟨c', d', hpage', hlt', by omega, hb, hcut', .inr ?_⟩
      rcases hend with rfl | hend
      · exact hcut
      · exact hend

theorem Paged.nonempty (h : Paged log n b run) {page : SubagentHistoryResult}
    (hmem : page ∈ run) (hempty : page.log = []) : log = [] := by
  obtain ⟨c, d, hpage, hlt | hnil, hd, hb, _, _⟩ := h.page hmem
  · have hlen : (stretch log c d).length = d - c := length_stretch (le_trans hd hb)
    rw [← hpage, hempty, length_nil] at hlen
    omega
  · exact hnil

theorem Paged.disjoint (hlog : Numbered log) (h : Paged log n b run) :
    run.Pairwise fun p q => p.log.Disjoint q.log := by
  induction h with
  | spent b => exact .nil
  | last => exact pairwise_singleton _ _
  | @more n b c page rest hpage hmore hc hlt hb hcut hrest ih =>
    refine pairwise_cons.mpr ⟨fun q hq e he he' => ?_, ih⟩
    obtain ⟨c', d', hpage', _, hd', _, _, _⟩ := hrest.page hq
    rw [hpage] at he
    rw [hpage'] at he'
    have hge := ((mem_stretch_seq hlog).mp he).2.1
    have hlt' := ((mem_stretch_seq hlog).mp he').2.2
    omega

theorem Paged.dropLast (h : Paged log n b run) {page : SubagentHistoryResult}
    (hmem : page ∈ run.dropLast) : page.hasMore = true := by
  induction h with
  | spent b => cases hmem
  | last => cases hmem
  | @more n b c head rest hpage hmore hc hlt hb hcut hrest ih =>
    cases rest with
    | nil => cases hmem
    | cons next rest =>
      rw [dropLast_cons_cons] at hmem
      rcases mem_cons.mp hmem with rfl | hmem
      · exact hmore
      · exact ih hmem

theorem Paged.complete (h : Paged log n b run) (hn : 0 < n) (hb : b ≤ n) :
    (∃ page, run.getLast? = some page ∧ page.hasMore = false)
      ∧ (run.reverse.map SubagentHistoryResult.log).flatten = log.take b := by
  induction h with
  | spent b => omega
  | @last n b page hpage hmore =>
    refine ⟨⟨page, rfl, hmore⟩, ?_⟩
    simp [hpage, stretch]
  | @more n b c page rest hpage hmore hc hlt hle hcut hrest ih =>
    obtain ⟨⟨last, hlast, hnomore⟩, hwhole⟩ := ih (by omega) (by omega)
    refine ⟨⟨last, ?_, hnomore⟩, ?_⟩
    · rw [getLast?_cons, hlast, getD_some]
    · simp only [reverse_cons, map_append, map_cons, map_nil,
        flatten_append, flatten_cons, flatten_nil, append_nil, hwhole, hpage]
      exact take_append_stretch (le_of_lt hlt)

/-- A page that is not the last starts later than the one after it, so there is no more than one
page for each event. -/
theorem Paged.length_le (h : Paged log n b run) : run.length ≤ max 1 b := by
  induction h with
  | spent b => exact Nat.zero_le _
  | last => exact le_max_left _ _
  | @more n b c page rest hpage hmore hc hlt hle hcut hrest ih =>
    rw [length_cons]
    omega

theorem pages_nil {limits : List Nat} (h : limits ≠ []) :
    ∃ page, pages [] limits none = [page] ∧ page.log = [] ∧ page.hasMore = false := by
  cases limits with
  | nil => exact absurd rfl h
  | cons limit limits => exact ⟨historyPage [] none (some limit), rfl, rfl, rfl⟩

theorem askPages_eq_ok (request : SubagentHistoryRequest) {limits : List Nat} :
    ∀ beforeSeq, (∀ limit ∈ limits, 1 ≤ limit) →
      askPages request log limits beforeSeq = .ok (pages log limits beforeSeq) := by
  induction limits with
  | nil => exact fun _ _ => rfl
  | cons limit limits ih =>
    intro beforeSeq hlimits
    have hpos : some limit ≠ some 0 := by
      have := hlimits limit mem_cons_self
      intro h
      rw [some.inj h] at this
      omega
    have hpage : history { request with beforeSeq, maxMessages := some limit } (.ok ())
        (.ok (some request.mode)) (.ok log) false
        = .ok (historyPage log beforeSeq (some limit)) := by
      simp [history, bind, Except.bind, hpos, pure, Except.pure]
    rw [askPages, hpage, pages]
    simp only [bind, Except.bind]
    split
    · rw [ih _ fun l hl => hlimits l (mem_cons_of_mem limit hl)]
    · rfl

/-! ## Messages and their chunks -/

def CitesChunk (log : List SessionEvent) (m chunk : SessionEvent) : Prop :=
  m ∈ log ∧ isMessage m = true ∧ chunk ∈ log ∧ chunk.eventType = "assistant/chunk"
    ∧ chunk.seq ∈ citations m

def KeepsChunks (log : List SessionEvent) (page : SubagentHistoryResult) : Prop :=
  ∀ m ∈ page.log, ∀ chunk, CitesChunk log m chunk → chunk ∈ page.log

/-- No citation of a chunk reaches across a place where a page may start. -/
def Uncut (log : List SessionEvent) : Prop :=
  ∀ c, IsCut log c → ∀ m chunk, CitesChunk log m chunk → (c ≤ m.seq ↔ c ≤ chunk.seq)

theorem Paged.keepsChunks (hlog : Numbered log) (huncut : Uncut log)
    (h : Paged log n log.length run) {page : SubagentHistoryResult} (hmem : page ∈ run) :
    KeepsChunks log page := by
  obtain ⟨c, d, hpage, _, _, _, hc, hd⟩ := h.page hmem
  intro m hm chunk hcites
  rw [hpage] at hm ⊢
  obtain ⟨_, hge, hlt⟩ := (mem_stretch_seq hlog).mp hm
  refine (mem_stretch_seq hlog).mpr ⟨hcites.2.2.1, (huncut c hc m chunk hcites).mp hge, ?_⟩
  rcases hd with rfl | hd
  · exact hlog.seq_lt_length hcites.2.2.1
  · have hiff := huncut d hd m chunk hcites
    omega

/-- A message that counts sets the end of one page and the start of the
next, for the right limit. -/
theorem exists_pages_at (hlog : Numbered log) (hcut : IsCut log c) (hc : c ≠ 0) :
    ∃ limits, (∀ limit ∈ limits, 1 ≤ limit) ∧
      ∃ page rest, pages log limits none = page :: rest
        ∧ page.log = stretch log c log.length
        ∧ (rest.reverse.map SubagentHistoryResult.log).flatten = log.take c
        ∧ Paged log log.length c rest := by
  rcases hcut with hzero | ⟨m, hm, hcounts, rfl⟩
  · exact absurd hzero hc
  obtain ⟨limit, hpos, hcutoff⟩ := exists_cutoff hm hcounts
  have hlt : messageCut m < log.length :=
    lt_of_le_of_lt (messageCut_le_seq m) (hlog.seq_lt_length hm)
  obtain ⟨c, hcdef, hpage, hmore⟩ := historyPage_stretch hlog none limit
  rw [getD_none, take_length, hcutoff] at hcdef
  subst hcdef
  rw [getD_none] at hpage
  have hrest := pages_paged hlog (List.replicate log.length 1) (some (messageCut m))
    (by rw [getD_some]; omega) (.inl (Nat.pos_of_ne_zero hc))
  rw [length_replicate, getD_some] at hrest
  refine ⟨limit :: List.replicate log.length 1, ?_, historyPage log none (some limit),
    pages log (List.replicate log.length 1) (some (messageCut m)), ?_, hpage, ?_, hrest⟩
  · intro l hl
    rcases mem_cons.mp hl with rfl | hl
    · exact hpos
    · rw [eq_of_mem_replicate hl]
  · rw [pages_cons, if_pos (hmore.mpr hc), hpage,
      head?_stretch hlog hlt (le_refl log.length)]
  · exact (hrest.complete (by omega) (by omega)).2

/-- Where every page keeps its chunks no citation is cut. -/
theorem uncut_of_keepsChunks (hlog : Numbered log)
    (h : ∀ limits : List Nat, (∀ limit ∈ limits, 1 ≤ limit) →
      ∀ page ∈ pages log limits none, KeepsChunks log page) : Uncut log := by
  intro c hcut m chunk hcites
  by_cases hc : c = 0
  · simp [hc]
  obtain ⟨limits, hlimits, page, rest, hpages, hpage, hwhole, hrest⟩ :=
    exists_pages_at hlog hcut hc
  have hkeeps := h limits hlimits
  rw [hpages] at hkeeps
  constructor
  · intro hge
    have hm : m ∈ page.log := by
      rw [hpage]
      exact (mem_stretch_seq hlog).mpr ⟨hcites.1, hge, hlog.seq_lt_length hcites.1⟩
    have hchunk := hkeeps page mem_cons_self m hm chunk hcites
    rw [hpage] at hchunk
    exact ((mem_stretch_seq hlog).mp hchunk).2.1
  · -- A message before the cut is on a later page, and its chunk with it.
    intro hge
    by_contra hlt
    have hm : m ∈ (rest.reverse.map SubagentHistoryResult.log).flatten := by
      rw [hwhole, ← filter_seq_lt hlog c]
      exact mem_filter.mpr ⟨hcites.1, by simpa using hlt⟩
    obtain ⟨events, hevents, hm⟩ := mem_flatten.mp hm
    obtain ⟨later, hlater, rfl⟩ := mem_map.mp hevents
    have hlater := mem_reverse.mp hlater
    have hchunk := hkeeps later (mem_cons_of_mem page hlater) m hm chunk hcites
    obtain ⟨c', d', hpage', _, hd', _, _, _⟩ := hrest.page hlater
    rw [hpage'] at hchunk
    have := ((mem_stretch_seq hlog).mp hchunk).2.2
    omega

/-! ## The pages of a child's log -/

/-- The pages of a child's log are answered one after another, none is
empty unless the log is (then it is the only one), there are no more of
them than events, no two share an event, all but the last say
that there is more, and with a limit for every event they end and are
the log. They keep every message with its chunks exactly when no
citation is cut. -/
theorem history_pages_partition (request : SubagentHistoryRequest) {log : List SessionEvent}
    (hlog : Numbered log) :
    (∀ limits : List Nat, (∀ limit ∈ limits, 1 ≤ limit) →
      askPages request log limits none = .ok (pages log limits none)
      ∧ (∀ page ∈ pages log limits none, page.log = [] → log = [])
      ∧ (log = [] → limits ≠ [] →
        ∃ page, pages log limits none = [page] ∧ page.log = [] ∧ page.hasMore = false)
      ∧ (pages log limits none).length ≤ max 1 log.length
      ∧ (pages log limits none).Pairwise (fun p q => p.log.Disjoint q.log)
      ∧ (∀ page ∈ (pages log limits none).dropLast, page.hasMore = true)
      ∧ (log.length ≤ limits.length → limits ≠ [] →
        (∃ page, (pages log limits none).getLast? = some page ∧ page.hasMore = false)
        ∧ ((pages log limits none).reverse.map SubagentHistoryResult.log).flatten = log))
    ∧ ((∀ limits : List Nat, (∀ limit ∈ limits, 1 ≤ limit) →
        ∀ page ∈ pages log limits none, KeepsChunks log page) ↔ Uncut log) := by
  have hpaged : ∀ limits : List Nat,
      Paged log limits.length log.length (pages log limits none) := by
    intro limits
    refine pages_paged hlog limits none (le_refl log.length) ?_
    rcases Nat.eq_zero_or_pos log.length with hzero | hpos
    · exact .inr (length_eq_zero_iff.mp hzero)
    · exact .inl hpos
  refine ⟨fun limits hlimits => ⟨askPages_eq_ok request none hlimits, ?_, ?_, ?_, ?_, ?_, ?_⟩, ?_, ?_⟩
  · exact fun page hmem hempty => (hpaged limits).nonempty hmem hempty
  · rintro rfl hne
    exact pages_nil hne
  · exact (hpaged limits).length_le
  · exact (hpaged limits).disjoint hlog
  · exact fun page hmem => (hpaged limits).dropLast hmem
  · intro hlength hne
    have hcomplete := (hpaged limits).complete (length_pos_iff.mpr hne) hlength
    rwa [take_length] at hcomplete
  · exact uncut_of_keepsChunks hlog
  · exact fun huncut limits _ page hmem => (hpaged limits).keepsChunks hlog huncut hmem

def chunkedLog : List SessionEvent :=
  [{ SessionEvent.plain "user/message" 0 0 .null with surfaceOp := some .append },
    SessionEvent.plain "assistant/chunk" 1 0 .null,
    { SessionEvent.plain "assistant/message" 2 0 .null with
      sourceEventSeqs := some [1], surfaceOp := some .append }]

theorem numbered_chunkedLog : Numbered chunkedLog := by
  rw [show chunkedLog = (([] ++ [chunkedLog[0]]) ++ [chunkedLog[1]]) ++ [chunkedLog[2]] from rfl]
  iterate 3 rw [numbered_snoc]
  exact ⟨⟨⟨fun i e h => by simp at h, rfl⟩, rfl⟩, rfl⟩

theorem history_pages_partition_chunkedLog :
    (pages chunkedLog [1, 1, 1] none).map SubagentHistoryResult.log
        = [chunkedLog.drop 1, chunkedLog.take 1]
      ∧ ((pages chunkedLog [1, 1, 1] none).reverse.map SubagentHistoryResult.log).flatten
        = chunkedLog := by
  have hpages := (history_pages_partition
    { parentSessionId := ⟨"parent"⟩, childSessionId := ⟨"child"⟩, mode := .continuable
      beforeSeq := none, maxMessages := none } numbered_chunkedLog).1 [1, 1, 1] (by decide)
  exact ⟨by decide, (hpages.2.2.2.2.2.2 (by decide) (by decide)).2⟩

/-- A chunk, a message that comes in before its answer, and the answer. -/
def interruptedLog : List SessionEvent :=
  [SessionEvent.plain "assistant/chunk" 0 0 .null,
    { SessionEvent.plain "user/message" 1 0 .null with surfaceOp := some .append },
    { SessionEvent.plain "assistant/message" 2 0 .null with
      sourceEventSeqs := some [0], surfaceOp := some .append }]

/-- The log of a child without events has a page without events, and a
page that starts with the message in between has lost the chunk. -/
theorem history_pages_empty_and_cut :
    (∃ page ∈ pages [] [1] none, page.log = [])
      ∧ ∃ page ∈ pages interruptedLog [2] none, ∃ m ∈ page.log, ∃ chunk ∈ interruptedLog,
        isMessage m = true ∧ chunk.eventType = "assistant/chunk" ∧ chunk.seq ∈ citations m
          ∧ chunk ∉ page.log := by
  decide

end Tessivum.Subagent
