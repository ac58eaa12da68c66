/-
Tessivum.Api.StreamTheorems — what a client of the event stream gets over all
its connections.

`Caught` says that a list of frames, the newest first, carries the first `n`
committed events in order, and that its last id is the one of the last of them.
A connection continues such a list (`Follows`): the suffix it read and the
events its receiver still has leave no gap.
-/
import Tessivum.Library.Machine
import Tessivum.Projection.RelayTheorems
import Tessivum.Api.EventStream

namespace Tessivum.Api

open Library Protocol Projection Session List ProjectionSystem
open Projection.ProjectionSystem (Placed Moved)

/-! ## Frames -/

/-- The frames, the newest first, have the first `n` events of the log; a
projection's frame has the id of the last of them. -/
inductive Caught (log : List SessionEvent) : List Frame → Nat → Prop where
  | nil : Caught log [] 0
  | event {rest : List Frame} {e : SessionEvent} (hget : log[e.seq]? = some e)
      (h : Caught log rest e.seq) : Caught log (.notice (.sessionEvent e) :: rest) (e.seq + 1)
  | projection {rest : List Frame} {key : String} {value : Value} {seq : Nat}
      (h : Caught log rest (seq + 1)) :
      Caught log (.notice (.sessionProjection key value seq) :: rest) (seq + 1)
  | plain {rest : List Frame} {f : Frame} {n : Nat} (hevent : f.event = none) (hid : f.id = none)
      (h : Caught log rest n) : Caught log (f :: rest) n

variable {frames : List Frame} {n : Nat} {notice : Notice} {queue : List Notice}
  {params : StreamParams}

variable {log : List SessionEvent}

theorem Caught.append (h : Caught log frames n) (x : SessionEvent) :
    Caught (log ++ [x]) frames n := by
  induction h with
  | nil => exact .nil
  | event hget _ ih => exact .event (getElem?_seq_snoc hget x) ih
  | projection _ ih => exact .projection ih
  | plain hevent hid _ ih => exact .plain hevent hid ih

theorem Caught.older {older newer : List Frame}
    (h : Caught log (newer ++ older) n) : ∃ m, Caught log older m := by
  induction newer generalizing n with
  | nil => exact ⟨n, h⟩
  | cons f newer ih =>
    cases h with
    | event _ h | projection h | plain _ _ h => exact ih h

theorem Caught.lastId (h : Caught log frames n) :
    frames.findSome? Frame.id = if n = 0 then none else some (n - 1) := by
  induction h with
  | nil => rfl
  | event => rfl
  | projection _ _ => rfl
  | plain _ hid _ ih => rw [findSome?_cons, hid, ih]

theorem Caught.le (h : Caught log frames n) : n ≤ log.length := by
  induction h with
  | nil => exact Nat.zero_le _
  | event hget => exact (List.getElem?_eq_some_iff.mp hget).1
  | projection _ ih => exact ih
  | plain _ _ _ ih => exact ih

theorem Caught.events (h : Caught log frames n) :
    (frames.filterMap Frame.event).reverse = log.take n := by
  induction h with
  | nil => rfl
  | event hget _ ih =>
    rename_i rest e _
    have hcons : (Frame.notice (.sessionEvent e) :: rest).filterMap Frame.event =
        e :: rest.filterMap Frame.event := rfl
    rw [hcons, reverse_cons, ih, take_add_one, hget]
    rfl
  | projection _ ih => exact ih
  | plain hevent _ _ ih => rw [filterMap_cons_none hevent, ih]

/-! ## Notices -/

/-- A notice of an event or a projection is of a committed event. -/
def Known (log : List SessionEvent) : Notice → Prop
  | .sessionEvent e => log[e.seq]? = some e
  | .sessionProjection _ _ seq => seq < log.length
  | _ => True

/-- A stream that stands at `n` reads the notices without a gap, and past
all of them has every event before `sent`. -/
def Continues : Nat → List Notice → Nat → Prop
  | n, [], sent => sent ≤ n
  | n, .sessionEvent e :: rest, sent => e.seq ≤ n ∧ Continues (max n (e.seq + 1)) rest sent
  | n, .sessionProjection _ _ seq :: rest, sent => seq < n ∧ Continues n rest sent
  | n, .lifecycle _ _ :: rest, sent => Continues n rest sent
  | n, .unrelated :: rest, sent => Continues n rest sent

theorem Known.append (h : Known log notice) (x : SessionEvent) :
    Known (log ++ [x]) notice := by
  cases notice with
  | sessionEvent e => exact getElem?_seq_snoc h x
  | sessionProjection => exact lt_of_lt_of_le h (by simp)
  | lifecycle type payload => trivial
  | unrelated => trivial

theorem Continues.snoc {sent sent' : Nat} (hnotice : ∀ m, sent ≤ m → Continues m [notice] sent') :
    ∀ {n : Nat}, Continues n queue sent → Continues n (queue ++ [notice]) sent' := by
  induction queue with
  | nil => exact fun h => hnotice _ h
  | cons first rest ih =>
    intro n h
    cases first with
    | sessionEvent e | sessionProjection => exact ⟨h.1, ih h.2⟩
    | lifecycle type payload => exact ih h
    | unrelated => exact ih h

theorem Continues.raise {sent sent' : Nat} : ∀ {n : Nat},
    Continues n queue sent → sent' ≤ n → Continues n queue sent' := by
  induction queue with
  | nil => exact fun _ hle => hle
  | cons first rest ih =>
    intro n h hle
    cases first with
    | sessionEvent e => exact ⟨h.1, ih h.2 (by omega)⟩
    | sessionProjection => exact ⟨h.1, ih h.2 hle⟩
    | lifecycle type payload => exact ih h hle
    | unrelated => exact ih h hle

theorem Continues.of_known {sent : Nat} (hsent : sent ≤ log.length) :
    ∀ {queue : List Notice} {n : Nat}, (∀ notice ∈ queue, Known log notice) → log.length ≤ n →
      Continues n queue sent := by
  intro queue
  induction queue with
  | nil => exact fun _ hn => le_trans hsent hn
  | cons notice rest ih =>
    intro n hknown hn
    have hrest : ∀ x ∈ rest, Known log x := fun x hx => hknown x (mem_cons_of_mem _ hx)
    have hfirst := hknown notice mem_cons_self
    cases notice with
    | sessionEvent e =>
      have hlt : e.seq < log.length := (List.getElem?_eq_some_iff.mp hfirst).1
      exact ⟨by omega, ih hrest (by omega)⟩
    | sessionProjection => exact ⟨lt_of_lt_of_le hfirst hn, ih hrest hn⟩
    | lifecycle type payload | unrelated => exact ih hrest hn

/-! ## Connections -/

/-- The events a connection is sure to write before it reads its receiver:
the log up to here. -/
def Connection.covered (c : Connection) (suffix : List SessionEvent) : Nat :=
  c.nextSeq + suffix.length

/-- The connection goes on where the frames end. -/
structure Follows (log : List SessionEvent) (sent : Nat) (received : List Frame)
    (c : Connection) : Prop where
  caught : ∃ n, Caught log (c.underWay.reverse ++ received) n ∧ (c.ended = false → n = c.nextSeq)
  known : ∀ notice ∈ c.queue, Known log notice
  suffix : c.ended = false → ∀ d, c.durable = some d →
    d <+: log.drop c.nextSeq ∧ (c.dropped = none → Continues (c.covered d) c.queue sent)

variable {log : List SessionEvent} {sent sent' : Nat} {received : List Frame} {c : Connection}

theorem Follows.append (h : Follows log sent received c) (x : SessionEvent) :
    Follows (log ++ [x]) sent received c where
  caught := by
    obtain ⟨n, hcaught, hn⟩ := h.caught
    exact ⟨n, hcaught.append x, hn⟩
  known notice hmem := (h.known notice hmem).append x
  suffix hended d hd := by
    obtain ⟨hprior, hcontinues⟩ := h.suffix hended d hd
    obtain ⟨n, hcaught, hn⟩ := h.caught
    refine ⟨?_, hcontinues⟩
    rw [drop_append_of_le_length (hn hended ▸ hcaught.le)]
    exact hprior.trans (prefix_append _ _)

theorem Follows.send (h : Follows log sent received c) (hknown : Known log notice)
    (hnotice : ∀ m, sent ≤ m → Continues m [notice] sent') :
    Follows log sent' received { c with queue := c.queue ++ [notice] } where
  caught := h.caught
  known x hx := by
    obtain hold | hnew := mem_append.mp hx
    · exact h.known x hold
    · rw [mem_singleton.mp hnew]
      exact hknown
  suffix hended d hd := by
    obtain ⟨hprior, hcontinues⟩ := h.suffix hended d hd
    exact ⟨hprior, fun hdropped => (hcontinues hdropped).snoc hnotice⟩

theorem Follows.of_ended (hended : c.ended = true)
    (hcaught : ∃ n, Caught log (c.underWay.reverse ++ received) n)
    (hknown : ∀ notice ∈ c.queue, Known log notice) : Follows log sent received c where
  caught := by
    obtain ⟨n, hn⟩ := hcaught
    exact ⟨n, hn, fun h => absurd (hended.symm.trans h) (by decide)⟩
  known := hknown
  suffix h := absurd (hended.symm.trans h) (by decide)

theorem caught_plain {f : Frame} (hevent : f.event = none) (hid : f.id = none)
    (h : Caught log (frames.reverse ++ received) n) :
    Caught log ((frames ++ [f]).reverse ++ received) n := by
  rw [reverse_append]
  exact .plain hevent hid h

theorem follows_write (hbefore : ∃ n, Caught log (c.underWay.reverse ++ received) n)
    (hframe : Caught log (.notice notice :: (c.underWay.reverse ++ received)) c.nextSeq)
    (hknown : ∀ x ∈ c.queue, Known log x)
    (hsuffix : ∀ d, c.durable = some d →
      d <+: log.drop c.nextSeq ∧ (c.dropped = none → Continues (c.covered d) c.queue sent)) :
    Follows log sent received (c.write params notice) := by
  unfold Connection.write
  split
  · refine ⟨⟨c.nextSeq, ?_, fun _ => rfl⟩, hknown, fun _ => hsuffix⟩
    rw [reverse_append]
    exact hframe
  · obtain ⟨n, hn⟩ := hbefore
    exact .of_ended rfl ⟨n, caught_plain rfl rfl hn⟩ hknown

/-- A turn that sends an event of the durable suffix. -/
theorem Follows.turn_suffix (h : Follows log sent received c) (hlog : Numbered log)
    (hended : c.ended = false) {e : SessionEvent} {rest : List SessionEvent}
    (hdurable : c.durable = some (e :: rest)) :
    Follows log sent received
      (Connection.write params
        { c with nextSeq := max c.nextSeq (e.seq + 1), durable := some rest }
        (.sessionEvent e)) := by
  obtain ⟨n, hcaught, hn⟩ := h.caught
  obtain rfl := hn hended
  obtain ⟨⟨tail, htail⟩, hcontinues⟩ := h.suffix hended _ hdurable
  have hget : log[c.nextSeq]? = some e := by
    have hhead := congrArg (fun l => l[0]?) htail
    simpa using hhead.symm
  have hseq : e.seq = c.nextSeq := hlog c.nextSeq e hget
  have hnext : max c.nextSeq (e.seq + 1) = c.nextSeq + 1 := by omega
  refine follows_write ⟨_, hcaught⟩ ?_ h.known ?_
  · dsimp only
    rw [hnext, ← hseq]
    exact .event (by rw [hseq]; exact hget) (by rw [hseq]; exact hcaught)
  · rintro d ⟨⟩
    simp only [hnext]
    refine ⟨⟨tail, ?_⟩, fun hdropped => ?_⟩
    · rw [← drop_drop, ← htail]
      rfl
    · have hcovered : c.covered (e :: rest) = c.nextSeq + 1 + rest.length := by
        simp only [Connection.covered, length_cons]
        omega
      have hrest := hcontinues hdropped
      rw [hcovered] at hrest
      exact hrest

/-- The condition on a turn: a projection's notice that is handled has not
fallen behind the events written. -/
def Connection.upToDate (c : Connection) : Bool :=
  match c.ended, c.durable, c.dropped, c.queue with
  | false, some [], none, .sessionProjection _ _ seq :: _ => c.nextSeq ≤ seq + 1
  | _, _, _, _ => true

/-- A turn that takes a notice from an empty suffix on. -/
theorem Follows.handle (h : Follows log sent received c) (hended : c.ended = false)
    (hdurable : c.durable = some []) (hdropped : c.dropped = none) {rest : List Notice}
    (hqueue : c.queue = notice :: rest) (hdate : c.upToDate = true) :
    Follows log sent received (Connection.handle params { c with queue := rest } notice) := by
  obtain ⟨n, hcaught, hn⟩ := h.caught
  obtain rfl := hn hended
  have hcontinues := (h.suffix hended _ hdurable).2 hdropped
  have hknown : ∀ x ∈ rest, Known log x := fun x hx =>
    h.known x (by rw [hqueue]; exact mem_cons_of_mem _ hx)
  have hfirst : Known log notice := h.known notice (by rw [hqueue]; exact mem_cons_self)
  rw [hqueue] at hcontinues
  simp only [Connection.covered, length_nil, Nat.add_zero] at hcontinues
  cases notice with
  | sessionEvent e =>
    obtain ⟨hle, hrest⟩ := hcontinues
    simp only [Connection.handle]
    split
    · next hlt =>
      -- it was in the suffix
      refine ⟨⟨_, hcaught, fun _ => rfl⟩, hknown, fun _ d hd => ?_⟩
      cases hdurable.symm.trans hd
      refine ⟨ nil_prefix, fun _ => ?_⟩
      simpa only [Connection.covered, length_nil, Nat.add_zero,
        Nat.max_eq_left (Nat.succ_le_of_lt hlt)] using hrest
    · next hge =>
      have hseq : e.seq = c.nextSeq := by
        simp only [not_lt] at hge
        exact le_antisymm hle hge
      refine follows_write ⟨_, hcaught⟩ ?_ hknown fun d hd => ?_
      · exact .event hfirst (by rw [hseq]; exact hcaught)
      · cases hdurable.symm.trans hd
        refine ⟨ nil_prefix, fun _ => ?_⟩
        simpa only [Connection.covered, length_nil, Nat.add_zero,
          show max c.nextSeq (e.seq + 1) = e.seq + 1 by omega] using hrest
  | sessionProjection key value seq =>
    obtain ⟨hlt, hrest⟩ := hcontinues
    have hnext : c.nextSeq = seq + 1 := by
      simp only [Connection.upToDate, hended, hdurable, hdropped, hqueue,
        decide_eq_true_eq] at hdate
      omega
    refine follows_write ⟨_, hcaught⟩ ?_ hknown fun d hd => ?_
    · dsimp only
      rw [hnext]
      exact .projection (hnext ▸ hcaught)
    · cases hdurable.symm.trans hd
      exact ⟨ nil_prefix, fun _ => hrest⟩
  | lifecycle type payload =>
    refine follows_write ⟨_, hcaught⟩ ?_ hknown fun d hd => ?_
    · exact .plain rfl rfl hcaught
    · cases hdurable.symm.trans hd
      exact ⟨ nil_prefix, fun _ => hcontinues⟩
  | unrelated =>
    refine ⟨⟨_, hcaught, fun _ => rfl⟩, hknown, fun _ d hd => ?_⟩
    cases hdurable.symm.trans hd
    exact ⟨ nil_prefix, fun _ => hcontinues⟩

theorem Follows.turn (h : Follows log sent received c) (hlog : Numbered log)
    (hdate : c.upToDate = true) : Follows log sent received (c.turn params) := by
  unfold Connection.turn
  split
  · exact h
  · next hended =>
    have hended : c.ended = false := by simpa using hended
    split
    · exact h
    · next e rest hdurable => exact h.turn_suffix hlog hended hdurable
    · next hdurable =>
      split
      · next dropped hdropped =>
        obtain ⟨n, hcaught, -⟩ := h.caught
        exact .of_ended rfl ⟨n, caught_plain rfl rfl hcaught⟩ h.known
      · next hdropped =>
        split
        · exact h
        · next notice rest hqueue => exact h.handle hended hdurable hdropped hqueue hdate

/-! ## The system -/

namespace StreamSystem

def sentSeq (s : StreamSystem) : Nat :=
  match s.emission with
  | .announced => s.host.relay.position + 1
  | _ => s.host.relay.position

/-- What the relay holds inside `relay_event`. -/
def EmissionOk (host : ProjectionSystem) : Emission → Prop
  | .idle => True
  | .announced => host.relay.position < host.log.length
  | .applied e => e.seq < host.relay.position
  | .sending notices =>
    ∀ notice ∈ notices, ∃ key value seq,
      notice = .sessionProjection key value seq ∧ seq < host.relay.position

/-- What holds in every state of a run that meets the condition. -/
structure Streams (s : StreamSystem) : Prop where
  placed : Placed s.host
  emission : EmissionOk s.host s.emission
  started : s.emission ≠ .idle → s.host.relay ≠ .absent
  received : ∃ n, Caught s.host.log s.received n
  connection : ∀ c ∈ s.connection, Follows s.host.log s.sentSeq s.received c

/-- The condition on a step: when the relay starts, an open stream has read
its suffix after the last append or has not read it yet; a connection with
a query asks for what it would get without; and no projection's notice
falls behind the events written. -/
def resumes (s : StreamSystem) : StreamStep → Bool
  | .host .relayStart =>
    s.host.relay ≠ .absent || s.connection.all fun c =>
      c.ended || c.durable.all fun d => s.host.log.length ≤ c.covered d
  | .connect (some start) => some start == sseFromSeq none s.lastEventId
  | .turn => s.connection.all Connection.upToDate
  | _ => true

variable {s : StreamSystem} {emission : Emission} {host : ProjectionSystem} {params : StreamParams}

theorem sentSeq_of_ne (h : s.emission ≠ .announced) : s.sentSeq = s.host.relay.position := by
  unfold sentSeq
  split
  · next heq => exact absurd heq h
  · rfl

theorem opened_streams (header : SessionHeader) {log : List SessionEvent} (hlog : Numbered log) :
    Streams (opened header log) where
  placed := opened_placed header hlog
  emission := trivial
  started h := absurd rfl h
  received := ⟨0, .nil⟩
  connection := nofun

theorem Streams.sentSeq_le (h : Streams s) : s.sentSeq ≤ s.host.log.length := by
  have hemission := h.emission
  unfold sentSeq
  split
  · next heq =>
    rw [heq] at hemission
    exact hemission
  · exact h.placed.relaying.position_le

/-! ## The relay's steps -/

variable {s : StreamSystem}

theorem Streams.send (h : Streams s) {notice : Notice} {emission : Emission}
    (hemission : EmissionOk s.host emission) (hstarted : s.host.relay ≠ .absent ∨ emission = .idle)
    (hknown : Known s.host.log notice)
    (hnotice : ∀ m, s.sentSeq ≤ m →
      Continues m [notice] (sentSeq { s.send notice with emission })) :
    Streams { s.send notice with emission } where
  placed := h.placed
  emission := hemission
  started hne := hstarted.resolve_right hne
  received := h.received
  connection c' hc' := by
    obtain ⟨c, hc, rfl⟩ := map_eq_some_iff.mp hc'
    exact (h.connection c hc).send hknown hnotice

theorem Streams.sendOther (h : Streams s) {notice : Notice}
    (hknown : Known s.host.log notice)
    (hnotice : ∀ m, s.sentSeq ≤ m → Continues m [notice] s.sentSeq) : Streams (s.send notice) := by
  by_cases hidle : s.emission = .idle
  · exact h.send h.emission (Or.inr hidle) hknown hnotice
  · exact h.send h.emission (Or.inl (h.started hidle)) hknown hnotice

theorem Streams.withHost (h : Streams s) (hplaced : Placed host)
    (hlog : host.log = s.host.log ∨ ∃ e, host.log = s.host.log ++ [e])
    (hemission : EmissionOk host emission) (hstarted : emission ≠ .idle → host.relay ≠ .absent)
    (hsent : sentSeq { s with host, emission } = s.sentSeq) :
    Streams { s with host, emission } := by
  obtain ⟨n, hn⟩ := h.received
  refine ⟨hplaced, hemission, hstarted, ?_, fun c hc => ?_⟩
  · obtain heq | ⟨e, heq⟩ := hlog
    · exact ⟨n, by rw [heq]; exact hn⟩
    · exact ⟨n, by rw [heq]; exact hn.append e⟩
  · have hfollows := h.connection c hc
    rw [← hsent] at hfollows
    obtain heq | ⟨e, heq⟩ := hlog
    · rw [← heq] at hfollows
      exact hfollows
    · have happended := hfollows.append e
      rw [← heq] at happended
      exact happended

theorem Streams.relayAnnounce (h : Streams s) : Streams s.relayAnnounce := by
  unfold StreamSystem.relayAnnounce
  split
  · next e hidle hnext =>
    obtain ⟨hposition, hget⟩ := h.placed.relayNext_eq hnext
    have hlt : e.seq < s.host.log.length := (List.getElem?_eq_some_iff.mp hget).1
    refine h.send (by rw [hposition] at hlt; exact hlt)
      (Or.inl (relayNext_ne_absent hnext)) hget fun m hm => ?_
    have hle : s.host.relay.position ≤ m := by simpa only [sentSeq, hidle] using hm
    have hsent : sentSeq { s.send (.sessionEvent e) with emission := .announced } =
        s.host.relay.position + 1 := rfl
    rw [hsent]
    refine ⟨by omega, ?_⟩
    show s.host.relay.position + 1 ≤ max m (e.seq + 1)
    omega
  · exact h

/-- The relay applies an event and tells every connection. -/
theorem Streams.relayApply (h : Streams s) : Streams s.relayApply := by
  have hplaced := h.placed.relayApply
  unfold StreamSystem.relayApply
  split
  · next e hannounced hnext =>
    have hposition := (h.placed.relayNext_eq hnext).1
    have hne : s.host.relayApply.relay ≠ .absent :=
      relay_ne_absent_of_step
        (relayNext_ne_absent hnext) .relayApply
    obtain ⟨hlog, hnew⟩ := relayApply_next hnext
    have hold : s.sentSeq = e.seq + 1 := by simp only [sentSeq, hannounced, hposition]
    refine h.withHost hplaced (Or.inl hlog) ?_ (fun _ => hne) ?_
    · split
      · show e.seq < s.host.relayApply.relay.position
        omega
      · trivial
    · rw [hold, ← hnew]
      refine sentSeq_of_ne ?_
      dsimp only
      split <;> exact nofun
  · next hidle hnext =>
    cases relayApply_idle hnext with
    | still hlog hposition =>
      refine h.withHost hplaced (Or.inl hlog) ?_ (fun hne => absurd hidle hne) ?_
      · rw [hidle]
        trivial
      · simp only [sentSeq, hidle, hposition]
    | appended e hlog hposition =>
      refine h.withHost hplaced (Or.inr ⟨e, hlog⟩) ?_ (fun hne => absurd hidle hne) ?_
      · rw [hidle]
        trivial
      · simp only [sentSeq, hidle, hposition]
  · exact h

theorem projectionNotices_mem {e : SessionEvent} {notice : Notice}
    (h : notice ∈ projectionNotices params host e) :
    ∃ key value, notice = .sessionProjection key value e.seq := by
  unfold projectionNotices at h
  split at h
  · exact nomatch h
  · obtain ⟨_, -, rfl⟩ := mem_map.mp h
    exact ⟨_, _, rfl⟩

theorem Streams.relaySnapshots (h : Streams s) : Streams (s.relaySnapshots params) := by
  unfold StreamSystem.relaySnapshots
  split
  · next e happlied =>
    have hlt : e.seq < s.host.relay.position := by
      have hemission := h.emission
      rw [happlied] at hemission
      exact hemission
    refine h.withHost h.placed (Or.inl rfl) (fun notice hmem => ?_)
      (fun _ => h.started (by rw [happlied]; exact nofun)) (by simp only [sentSeq, happlied])
    obtain ⟨key, value, rfl⟩ := projectionNotices_mem hmem
    exact ⟨key, value, e.seq, rfl, hlt⟩
  · exact h

theorem Streams.relaySend (h : Streams s) : Streams s.relaySend := by
  have hemission := h.emission
  unfold StreamSystem.relaySend
  split
  · next notice rest hsending =>
    rw [hsending] at hemission
    obtain ⟨_, _, _, rfl, hlt⟩ := hemission notice mem_cons_self
    have hle := h.placed.relaying.position_le
    refine h.send (fun x hx => hemission x (mem_cons_of_mem _ hx))
      (Or.inl (h.started (by rw [hsending]; exact nofun))) (lt_of_lt_of_le hlt hle)
      fun m hm => ?_
    have hm : s.host.relay.position ≤ m := by simpa only [sentSeq, hsending] using hm
    exact ⟨lt_of_lt_of_le hlt hm, hm⟩
  · next hsending =>
    exact h.withHost h.placed (Or.inl rfl) trivial (fun hne => absurd rfl hne)
      (by simp only [sentSeq, hsending])
  · exact h

/-! ## The host's other steps -/

theorem EmissionOk.of_le {host' : ProjectionSystem} (h : EmissionOk host emission)
    (hposition : host'.relay.position = host.relay.position)
    (hlog : host.log.length ≤ host'.log.length) : EmissionOk host' emission := by
  cases emission with
  | idle => trivial
  | announced =>
    show host'.relay.position < host'.log.length
    rw [hposition]
    exact lt_of_lt_of_le h hlog
  | applied e =>
    show e.seq < host'.relay.position
    rw [hposition]
    exact h
  | sending notices =>
    intro notice hmem
    rw [hposition]
    exact h notice hmem

section

variable (h : Streams s)

include h

theorem Streams.moved {i : ProjectionStep} (hstart : i ≠ .relayStart)
    (happly : i ≠ .relayApply) : Streams { s with host := s.host.step i } := by
  have hstarted : s.emission ≠ .idle → (s.host.step i).relay ≠ .absent := fun hne =>
    relay_ne_absent_of_step (h.started hne) i
  have hplaced := h.placed.step i
  cases step_moved s.host hstart happly with
  | still hlog hposition =>
    refine h.withHost hplaced (Or.inl hlog) (h.emission.of_le hposition (by rw [hlog])) hstarted ?_
    simp only [sentSeq, hposition]
  | appended e hlog hposition =>
    refine h.withHost hplaced (Or.inr ⟨e, hlog⟩)
      (h.emission.of_le hposition (by rw [hlog]; simp)) hstarted ?_
    simp only [sentSeq, hposition]

/-- The relay starts. -/
theorem Streams.relayStart (hcond : s.resumes (.host .relayStart) = true) :
    Streams { s with host := s.host.relayStart } := by
  by_cases habsent : s.host.relay = .absent
  · have hidle : s.emission = .idle := by
      by_contra hne
      exact h.started hne habsent
    have hplaced := h.placed.relayStart
    have hlog := relayStart_frame s.host
    have hle := hplaced.relaying.position_le
    rw [hlog] at hle
    refine
      { placed := hplaced
        emission := by rw [hidle]; trivial
        started := fun hne => absurd hidle hne
        received := by rw [hlog]; exact h.received
        connection := fun c hc => ?_ }
    have hfollows := h.connection c hc
    have hsent : sentSeq { s with host := s.host.relayStart } =
        s.host.relayStart.relay.position := by simp only [sentSeq, hidle]
    rw [hlog, hsent]
    refine ⟨hfollows.caught, hfollows.known, fun hended d hd => ?_⟩
    obtain ⟨hprior, hcontinues⟩ := hfollows.suffix hended d hd
    have hcovered : s.host.log.length ≤ c.covered d := by
      have hconnection : s.connection = some c := hc
      simpa only [resumes, habsent, ne_eq, not_true_eq_false, decide_false, Bool.false_or,
        hconnection, all_some, hended, hd, decide_eq_true_eq] using hcond
    exact ⟨hprior, fun hdropped =>
      (hcontinues hdropped).raise (le_trans hle hcovered)⟩
  · rw [relayStart_of_ne_absent habsent]
    exact h

/-- A step of the host keeps what every connection knows. -/
theorem Streams.hostStep (i : ProjectionStep) (hcond : s.resumes (.host i) = true) :
    Streams (s.hostStep i) := by
  cases i with
  | relayApply => exact h.relayApply
  | relayStart => exact h.relayStart hcond
  | relayScan | relayReceive | relayClose =>
    simp only [StreamSystem.hostStep]
    split
    · exact h.moved nofun nofun
    · exact h
  | register _ | append _ | publish | attach | ensureRelay | attachPrepare | attachInsert
  | attachReplay | observerReceive | observerApply | observerStop | relaySubscribe | shutdown =>
    exact h.moved nofun nofun

/-! ## The client's steps -/

/-- A connection that is made knows what the query answered. -/
theorem Streams.connect (queryFrom : Option Nat)
    (hcond : s.resumes (.connect queryFrom) = true) : Streams (s.connect queryFrom) := by
  unfold StreamSystem.connect
  split
  · next fromSeq hnone hfrom =>
    refine { h with connection := ?_ }
    rintro c ⟨⟩
    obtain ⟨n, hcaught⟩ := h.received
    have hresume : sseFromSeq none s.lastEventId = some fromSeq := by
      cases queryFrom with
      | none => exact hfrom
      | some start =>
        have heq : some start = sseFromSeq none s.lastEventId := by
          simpa only [resumes, beq_iff_eq] using hcond
        rw [← heq]
        simp only [sseFromSeq] at hfrom
        split at hfrom
        · exact hfrom
        · exact nomatch hfrom
    have hn : n = fromSeq := by
      rw [lastEventId, hcaught.lastId] at hresume
      by_cases hzero : n = 0
      · simp only [hzero, if_true, sseFromSeq, some.injEq] at hresume
        omega
      · simp only [hzero, if_false, sseFromSeq] at hresume
        split at hresume
        · simp only [some.injEq] at hresume
          omega
        · exact nomatch hresume
    exact ⟨⟨n, hcaught, fun _ => hn⟩, nofun, nofun⟩
  · exact h

theorem Streams.readSuffix : Streams s.readSuffix := by
  unfold StreamSystem.readSuffix
  split
  · exact h
  · next c hc =>
    split
    · exact h
    · refine { h with connection := ?_ }
      rintro c' ⟨⟩
      have hfollows := h.connection c hc
      obtain ⟨n, hcaught, hn⟩ := hfollows.caught
      refine ⟨⟨n, hcaught, hn⟩, hfollows.known, fun hended d hd => ?_⟩
      obtain rfl := hn hended
      have hle := hcaught.le
      cases hd
      dsimp only
      rw [filter_seq_ge h.placed.numbered]
      refine ⟨prefix_rfl, fun _ => ?_⟩
      refine Continues.of_known h.sentSeq_le hfollows.known ?_
      simp only [Connection.covered, length_drop]
      omega

theorem Streams.receive : Streams s.receive := by
  unfold StreamSystem.receive
  split
  · exact h
  · next c hc =>
    split
    · exact h
    · next frame rest hunderWay =>
      have hfollows := h.connection c hc
      obtain ⟨n, hcaught, hn⟩ := hfollows.caught
      rw [hunderWay, reverse_cons, append_assoc] at hcaught
      refine { h with received := hcaught.older, connection := ?_ }
      rintro _ ⟨⟩
      exact ⟨⟨n, hcaught, hn⟩, hfollows.known, hfollows.suffix⟩

theorem Streams.onConnection {f : Connection → Connection}
    (hf : ∀ c ∈ s.connection, Follows s.host.log s.sentSeq s.received (f c)) :
    Streams (s.onConnection f) :=
  { h with
    connection := fun c' hc' => by
      obtain ⟨c, hc, rfl⟩ := map_eq_some_iff.mp hc'
      exact hf c hc }

end

/-! ## Runs -/

/-- One step of host and connections, under the condition of the step. -/
theorem Streams.step {params : StreamParams} (h : Streams s) (i : StreamStep)
    (hcond : s.resumes i = true) : Streams (s.step params i) := by
  cases i with
  | host i => exact h.hostStep i hcond
  | relayAnnounce => exact h.relayAnnounce
  | relaySnapshots => exact h.relaySnapshots
  | relaySend => exact h.relaySend
  | lifecycle type payload | unrelated => exact h.sendOther trivial fun _ hm => hm
  | connect queryFrom => exact h.connect queryFrom hcond
  | readSuffix => exact h.readSuffix
  | turn =>
    refine h.onConnection fun c hc => (h.connection c hc).turn h.placed.numbered ?_
    simpa only [resumes, Option.mem_def.mp hc, all_some] using hcond
  | receive => exact h.receive
  | lag dropped =>
    refine h.onConnection fun c hc => ?_
    have hfollows := h.connection c hc
    exact ⟨hfollows.caught, fun x hx => hfollows.known x (mem_of_mem_drop hx),
      fun hended d hd => ⟨(hfollows.suffix hended d hd).1, nofun⟩⟩
  | shutdown =>
    refine h.onConnection fun c hc => ?_
    obtain ⟨n, hcaught, -⟩ := (h.connection c hc).caught
    exact .of_ended rfl ⟨n, hcaught⟩ (h.connection c hc).known
  | disconnect => exact { h with connection := nofun }

/-- Over every run that meets the condition, the events the client got are
the first ones committed, each once and in order. -/
theorem stream_resumes (params : StreamParams) (header : SessionHeader)
    (log : List SessionEvent) (hlog : Numbered log) (steps : List StreamStep)
    (hcond : Meets (fun s i => s.resumes i = true) (step params) (opened header log) steps) :
    ∃ n ≤ (run params (opened header log) steps).host.log.length,
      (run params (opened header log) steps).receivedEvents =
        (run params (opened header log) steps).host.log.take n := by
  have hstreams : Streams (run params (opened header log) steps) :=
    foldl_invariant_of_meets Streams (fun _ i hi h => h.step i hi) steps (opened header log) hcond
      (opened_streams header hlog)
  obtain ⟨n, hcaught⟩ := hstreams.received
  exact ⟨n, hcaught.le, hcaught.events⟩

/-! ## A client that reconnects -/

def plainParams : StreamParams := { fits := fun _ => true, view := fun _ state => .ok state }

def talkHeader : SessionHeader := .plain ⟨"talk"⟩ 0

def talked (seq : Nat) : SessionEvent := .plain "note" seq 1 .null

/-- The projection is registered, and the session attached and relayed. -/
def relayed : List StreamStep :=
  [.host (.register (listTypes "types" pushType)), .host .ensureRelay, .host (.attachPrepare 0),
    .host (.attachInsert 0), .host (.attachReplay 0), .host .relayStart, .host .relaySubscribe,
    .host .relayScan, .host .relayApply]

def appended (seq : Nat) : List StreamStep := [.host (.append (talked seq)), .host .publish]

def relayOne : List StreamStep :=
  [.host .relayReceive, .relayAnnounce, .host .relayApply, .relaySnapshots, .relaySend, .relaySend,
    .host .relayApply]

def gets (n : Nat) : List StreamStep := (List.replicate n [.turn, .receive]).flatten

/-- The client has one event from the suffix and one with its projection
from the relay when it is cut off, with a frame under way; it comes back
for the third. -/
def twoConnections : List StreamStep :=
  relayed ++ appended 0 ++ relayOne ++ [.connect none, .readSuffix] ++ gets 1 ++ appended 1 ++
    relayOne ++ gets 2 ++ appended 2 ++ relayOne ++ [.turn, .disconnect, .connect none,
    .readSuffix] ++ gets 2

theorem stream_resumes_twoConnections :
    (run plainParams (opened talkHeader []) twoConnections).receivedEvents.map (·.seq) =
        [0, 1, 2] ∧
      ∃ n ≤ (run plainParams (opened talkHeader []) twoConnections).host.log.length,
        (run plainParams (opened talkHeader []) twoConnections).receivedEvents =
          (run plainParams (opened talkHeader []) twoConnections).host.log.take n := by
  have hlog : Numbered [] := fun i e h => by simp at h
  exact ⟨by decide +kernel,
    stream_resumes plainParams talkHeader [] hlog twoConnections (by decide +kernel)⟩

/-- The client connects after the notice of event `0` is sent and before
the notice of its projection is. It reads both events from the suffix, then
gets the projection with the id `0`, and asks for event `1` again. -/
def lateProjection : List StreamStep :=
  relayed ++ appended 0 ++ [.host .relayReceive, .relayAnnounce] ++ appended 1 ++
    [.connect none, .readSuffix, .host .relayApply, .relaySnapshots, .relaySend] ++ gets 3 ++
    [.disconnect, .connect none, .readSuffix] ++ gets 1

/-- The client has the log of a session that is not relayed yet. Event `1`
is appended before the relay starts, and is in neither. -/
def lateRelay : List StreamStep :=
  [.connect none, .readSuffix] ++ gets 1 ++ appended 1 ++ relayed ++ appended 2 ++ relayOne ++
    gets 1

/-- Event `1` is repeated in one run and lost in the other. -/
theorem events_repeated_and_lost :
    (run plainParams (opened talkHeader []) lateProjection).receivedEvents.map (·.seq) =
        [0, 1, 1] ∧
      (run plainParams (opened talkHeader [talked 0]) lateRelay).receivedEvents.map (·.seq) =
        [0, 2] := by
  decide +kernel

end StreamSystem

end Tessivum.Api
