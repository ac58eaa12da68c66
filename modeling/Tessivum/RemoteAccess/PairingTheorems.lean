/-
Tessivum.RemoteAccess.PairingTheorems — pairing and revocation are safe over
whole runs in which no persist fails after it replaced the store.

`Secure` is the invariant: the file loads to the devices in memory, they are
kept by the history, and the history is in order. `Environment` is what is
assumed of the libraries: `NewDraw`, `NoCollision`, and that a document that
was written reads back.
-/
import Tessivum.Library.Machine
import Tessivum.RemoteAccess.ClockTheorems

namespace Tessivum.RemoteAccess

open Library Protocol

namespace AccessSystem

section
variable (sha256 : Bytes → Digest) (decode : Bytes → Except String StoredDocument)

/-! ## The invariant -/

def Loads (file : Option Bytes) (state : RemoteState) : Prop :=
  loadState decode file = .ok { state with pairing := none }

/-- What the store and the memory share. -/
structure Stored (s : AccessSystem) (state : RemoteState) : Prop where
  valid : Valid state
  tracks : Tracks sha256 state s.history
  loads : Loads decode s.file state
  memory : ∀ process ∈ s.process, process.state.devices = state.devices ∧
    process.state.revision = state.revision ∧ PairingOk sha256 process.state s.history

/-- A call that waits has read a clock and passed its checks. -/
def CallOk (pending : PendingCall) : Prop :=
  pending.now < u64Bound ∧ ∀ token deviceName,
    pending.request = .exchangePairing token deviceName → validateDeviceName deviceName = .ok ()

structure Secure (s : AccessSystem) : Prop where
  stored : ∃ state, Stored sha256 decode s state
  calls : ∀ c, ∀ pending ∈ s.call c, CallOk pending
  history : HistoryOk s.history

/-- What is assumed of a step: its draws are new, what its call supplies
collides with no secret, and the document it leaves reads back. -/
def Environment (s : AccessSystem) : AccessStep → Prop
  | .finish c draw outcome =>
    NewDraw s.history draw ∧
      (∀ pending ∈ s.call c, ∀ x ∈ pending.request.supplied, NoCollision sha256 s.history x) ∧
      ∀ doc ∈ (s.finish sha256 decode c draw outcome).written, decode doc.encode = .ok doc
  | _ => True

instance (s : AccessSystem) : ∀ i : AccessStep, Decidable (Environment sha256 decode s i)
  | .finish _ _ _ => inferInstanceAs (Decidable (NewDraw _ _ ∧ _))
  | .advance _ | .begin _ _ | .restart _ => .isTrue trivial

/-- The condition on a step: its persist does not fail after it replaced
the store. -/
def persistsOnce : AccessStep → Bool
  | .finish _ _ .failedAfterReplace => false
  | _ => true

variable {sha256 decode}

theorem fresh_secure : Secure sha256 decode fresh where
  stored := ⟨.empty, empty_valid, ⟨nofun, nofun⟩, rfl, nofun⟩
  calls := nofun
  history := trivial

/-! ## Calls -/

variable {pending : PendingCall} {process : Process} {s : AccessSystem} {outcome : PersistOutcome}
  {c : Nat} {draw : Draw}

theorem effect_ok {history : List Record} (draw : Draw) (h : Kept sha256 process.state history)
    (hcall : CallOk pending) (hnew : NewDraw history draw)
    (hsha : ∀ x ∈ pending.request.supplied, NoCollision sha256 history x) :
    Effect.Ok sha256 process.state history (effect sha256 process pending draw) := by
  unfold effect
  split
  · exact issuePairing_ok h process.config hnew
  · rename_i token deviceName hrequest
    exact exchangePairing_ok h process.config (hcall.2 _ _ hrequest) hnew
      (hsha token (by rw [hrequest]; rfl))
  · rename_i secret hrequest
    exact authenticate_ok h (hsha secret (by rw [hrequest]; rfl))
  · exact checkDevice_ok h _
  · exact revoke_ok h _ hcall.1
  · exact revokeAll_ok h hcall.1

theorem Secure.restart (h : Secure sha256 decode s) (config : RemoteAccessConfig) :
    Secure sha256 decode (s.restart decode config) := by
  obtain ⟨state, hstored⟩ := h.stored
  have hloads : loadState decode s.file = .ok { state with pairing := none } := hstored.loads
  refine
    { stored := ⟨state, hstored.valid, hstored.tracks.cons fun _ => rfl, hstored.loads, ?_⟩
      calls := nofun
      history := ⟨trivial, h.history⟩ }
  intro process hprocess
  simp only [AccessSystem.restart, openState, hloads] at hprocess
  split at hprocess
  · cases hprocess
  · split at hprocess
    · cases hprocess
    · cases hprocess
      exact ⟨rfl, rfl, nofun⟩

theorem stored_of_written {candidate : RemoteState} {record : Record}
    (hkept : Kept sha256 candidate (record :: s.history))
    (hdecode : decode candidate.document.encode = .ok candidate.document) :
    Stored sha256 decode
      { s.replaceStore candidate with
        process := some { process with state := candidate }, history := record :: s.history }
      candidate where
  valid := hkept.valid
  tracks := hkept.tracks
  loads := loadState_document hkept.valid hdecode
  memory p hp := by
    cases hp
    exact ⟨rfl, rfl, hkept.pairing⟩

/-- Taking an effect that is in order keeps the invariant, unless a
persist fails after it replaced the store. -/
theorem Secure.perform (h : Secure sha256 decode s) (hprocess : s.process = some process)
    {e : Effect} (he : e.Ok sha256 process.state s.history) (honce : outcome ≠ .failedAfterReplace)
    (hdecode : ∀ doc ∈ (s.perform decode process outcome e).written, decode doc.encode = .ok doc) :
    Secure sha256 decode (s.perform decode process outcome e) := by
  cases e with
  | done state' record =>
    obtain ⟨hkept, hrecord, hdevices, hrevision⟩ := he
    obtain ⟨state, hstored⟩ := h.stored
    have hmemory := hstored.memory process hprocess
    refine
      { stored := ⟨state', hkept.valid, hkept.tracks, ?_, ?_⟩
        calls := h.calls
        history := ?_ }
    · have hloads : loadState decode s.file = .ok { state with pairing := none } :=
        hstored.loads
      show loadState decode s.file = _
      rw [hloads, hdevices.trans hmemory.1, hrevision.trans hmemory.2.1]
    · intro p hp
      cases hp
      exact ⟨rfl, rfl, hkept.pairing⟩
    · cases record with
      | none => exact h.history
      | some r => exact ⟨hrecord r rfl, h.history⟩
  | persist candidate record =>
    obtain ⟨hkept, hrecord⟩ := he
    have hwritten : decode candidate.document.encode = .ok candidate.document →
        Secure sha256 decode
          { s.replaceStore candidate with
            process := some { process with state := candidate }
            history := record :: s.history } := fun hread =>
      { stored := ⟨candidate, stored_of_written hkept hread⟩
        calls := h.calls
        history := ⟨hrecord, h.history⟩ }
    cases outcome with
    | failed => exact h
    | failedAfterReplace => exact absurd rfl honce
    | persisted => exact hwritten (hdecode _ rfl)
    | crashed => exact (hwritten (hdecode _ rfl)).restart process.config

theorem Secure.withCall (h : Secure sha256 decode s) (c : Nat) (entry : Option PendingCall)
    (hentry : ∀ pending ∈ entry, CallOk pending) :
    Secure sha256 decode { s with call := Function.update s.call c entry } where
  stored := h.stored.imp fun _ hstored =>
    ⟨hstored.valid, hstored.tracks, hstored.loads, hstored.memory⟩
  calls c' pending hpending := by
    dsimp only at hpending
    by_cases hc : c' = c
    · rw [hc, update_self] at hpending
      exact hentry pending hpending
    · rw [update_of_ne hc] at hpending
      exact h.calls c' pending hpending
  history := h.history

theorem admitRequest_name {token deviceName : String}
    (h : (admitRequest (.exchangePairing token deviceName)).toOption.isSome = true) :
    validateDeviceName deviceName = .ok () := by
  simp only [admitRequest] at h
  cases hsecret : validateSecret token with
  | error err =>
    rw [hsecret] at h
    cases h
  | ok value =>
    rw [hsecret, ok_bind] at h
    cases hname : validateDeviceName deviceName with
    | ok value => rfl
    | error err =>
      rw [hname] at h
      cases h

theorem Secure.begin (h : Secure sha256 decode s) (c : Nat) (request : Request) :
    Secure sha256 decode (s.begin c request) := by
  unfold AccessSystem.begin
  split
  · split
    · rename_i hadmitted
      refine h.withCall c _ fun pending hpending => ?_
      cases hpending
      refine ⟨?_, fun token deviceName hrequest => ?_⟩
      · have hpos : 0 < u64Bound := by decide
        simp only [nowMillis]
        omega
      · dsimp only at hrequest
        rw [hrequest, and_eq_true] at hadmitted
        exact admitRequest_name hadmitted.2
    · exact h
  · exact h

/-! ## Runs -/

theorem finish_eq (hprocess : s.process = some process) (hpending : s.call c = some pending) :
    s.finish sha256 decode c draw outcome =
      perform decode { s with call := Function.update s.call c none } process outcome
        (effect sha256 process pending draw) := by
  unfold AccessSystem.finish
  split
  · rename_i hprocess' hpending'
    cases hprocess.symm.trans hprocess'
    cases hpending.symm.trans hpending'
    rfl
  · rename_i hnone
    exact (hnone process pending hprocess hpending).elim

theorem finish_idle (h : s.process = none ∨ s.call c = none) :
    s.finish sha256 decode c draw outcome = s := by
  unfold AccessSystem.finish
  rcases h with h | h
  · simp only [h]
  · cases s.process <;> simp only [h]

theorem Secure.kept (h : Secure sha256 decode s) (hprocess : s.process = some process) :
    Kept sha256 process.state s.history := by
  obtain ⟨_, hstored⟩ := h.stored
  obtain ⟨hdevices, hrevision, hpairing⟩ := hstored.memory process hprocess
  exact
    { valid :=
        { ordered := hdevices ▸ hstored.valid.ordered
          count := hdevices ▸ hstored.valid.count
          devices := hdevices ▸ hstored.valid.devices
          revision := hrevision ▸ hstored.valid.revision }
      tracks := hstored.tracks.of_devices hdevices
      pairing := hpairing }

theorem Secure.finish (h : Secure sha256 decode s)
    (henv : Environment sha256 decode s (.finish c draw outcome))
    (honce : persistsOnce (.finish c draw outcome) = true) :
    Secure sha256 decode (s.finish sha256 decode c draw outcome) := by
  obtain ⟨hnew, hsha, hdecode⟩ := henv
  cases hprocess : s.process with
  | none =>
    rw [finish_idle (.inl hprocess)]
    exact h
  | some process =>
    cases hpending : s.call c with
    | none =>
      rw [finish_idle (.inr hpending)]
      exact h
    | some pending =>
      have heffect := effect_ok draw (h.kept hprocess) (h.calls c pending hpending) hnew
        (hsha pending hpending)
      rw [finish_eq hprocess hpending] at hdecode ⊢
      refine (h.withCall c none nofun).perform hprocess heffect ?_ hdecode
      rintro rfl
      cases honce

/-- One step, in an environment that draws no secret twice. -/
theorem Secure.step {s : AccessSystem} (h : Secure sha256 decode s) (i : AccessStep)
    (henv : Environment sha256 decode s i) (honce : persistsOnce i = true) :
    Secure sha256 decode (s.step sha256 decode i) := by
  cases i with
  | advance millis =>
    exact ⟨h.stored.imp fun _ hstored =>
      ⟨hstored.valid, hstored.tracks, hstored.loads, hstored.memory⟩, h.calls, h.history⟩
  | begin c request => exact h.begin c request
  | finish => exact h.finish henv honce
  | restart config => exact h.restart config

def PersistOutcome.fails : PersistOutcome → Bool
  | .failed => true
  | .failedAfterReplace => true
  | _ => false

variable (sha256 decode) in
/-- A call whose persist fails changes neither memory nor the file. -/
def FailsCleanly (s : AccessSystem) (c : Nat) (draw : Draw) (outcome : PersistOutcome) : Prop :=
  ∀ process pending candidate record, s.process = some process → s.call c = some pending →
    effect sha256 process pending draw = .persist candidate record →
    PersistOutcome.fails outcome = true →
    (s.finish sha256 decode c draw outcome).process = s.process ∧
      (s.finish sha256 decode c draw outcome).file = s.file

theorem failsCleanly_of_once (honce : persistsOnce (.finish c draw outcome) = true) :
    FailsCleanly sha256 decode s c draw outcome := by
  intro process pending candidate record hprocess hpending heffect hfails
  rw [finish_eq hprocess hpending, heffect]
  cases outcome with
  | failed => exact ⟨rfl, rfl⟩
  | failedAfterReplace => cases honce
  | persisted => cases hfails
  | crashed => cases hfails

/-- Pairing and revocation over whole runs: every record of the history is
in order, a token yields at most one device, what a call committed has the clock
as it stood when the call was made, the file loads to the devices in memory, and
a further call whose persist fails changes nothing. -/
theorem remote_access_safe (sha256 : Bytes → Digest)
    (decode : Bytes → Except String StoredDocument) (steps : List AccessStep)
    (hrun : Meets (fun s i => Environment sha256 decode s i ∧ persistsOnce i = true)
      (step sha256 decode) fresh steps) :
    HistoryOk (run sha256 decode steps).history ∧
      (∀ token, exchanges token (run sha256 decode steps).history ≤ 1) ∧
      (∀ r ∈ (run sha256 decode steps).history, r = .restarted ∨ Made steps r) ∧
      (∃ state, loadState decode (run sha256 decode steps).file = .ok state ∧
        ∀ process ∈ (run sha256 decode steps).process,
          state.devices = process.state.devices ∧ state.revision = process.state.revision) ∧
      ∀ c draw outcome, persistsOnce (.finish c draw outcome) = true →
        FailsCleanly sha256 decode (run sha256 decode steps) c draw outcome := by
  have hsecure : Secure sha256 decode (run sha256 decode steps) :=
    foldl_invariant_of_meets (Secure sha256 decode) (fun _ i hi h => h.step i hi.1 hi.2) steps
      fresh hrun fresh_secure
  obtain ⟨state, hstored⟩ := hsecure.stored
  refine ⟨hsecure.history, fun token => ?_, history_made sha256 decode steps,
    ⟨_, hstored.loads, fun process hprocess => ?_⟩, fun c draw outcome honce => failsCleanly_of_once honce⟩
  · have hle := exchanges_le_pairings token hsecure.history
    have hone := pairings_le_one token hsecure.history
    omega
  · obtain ⟨hdevices, hrevision, -⟩ := hstored.memory process hprocess
    exact ⟨hdevices.symm, hrevision.symm⟩

end

/-! ## A failed revocation -/

def sampleConfig : RemoteAccessConfig :=
  { enabled := true, trustedTunnel := true, pairingTtl := 300 * 10 ^ 9
    sessionTtl := 30 * 24 * 3600 * 10 ^ 9 }

instance : NeZero (2 ^ 128 : Nat) := ⟨pow_ne_zero _ two_ne_zero⟩

def uuidOfNat (n : Nat) : Uuid := Fin.ofNat (2 ^ 128) n

/-- The ids drawn for the token, and those for the device and its
secret. -/
def tokenDraw : Draw :=
  { first := uuidOfNat 0x6513270e269e4d37b2a74de452e6b438
    second := uuidOfNat 0xd23f0824128b4f338c5c7fd0a6a3a450
    device := uuidOfNat 0x9531985d5d9d49f89818e811892f902b }

def deviceDraw : Draw :=
  { first := uuidOfNat 0x9531985d5d9d49f89818e811892f902b
    second := uuidOfNat 0x36f675cc81e74ef5a8e25d940ed90475
    device := uuidOfNat 0x6b0d549b6f03475a9600a35a099950d8 }

def sampleToken : String := randomSecret "tvp" tokenDraw.first tokenDraw.second
def sampleSecret : String := randomSecret "tvs" deviceDraw.first deviceDraw.second

def sampleSha256 (bytes : Bytes) : Digest :=
  if bytes = utf8 sampleToken then
    ⟨[140, 231, 199, 138, 232, 19, 198, 127, 76, 245, 238, 159, 172, 93, 138, 8,
      129, 111, 12, 183, 96, 148, 48, 2, 246, 111, 129, 238, 48, 199, 250, 107], rfl⟩
  else
    ⟨[114, 164, 231, 42, 167, 197, 129, 11, 48, 96, 150, 177, 163, 149, 185, 82,
      3, 104, 186, 55, 189, 81, 196, 205, 5, 0, 126, 39, 60, 123, 1, 26], rfl⟩

def samplePhone : StoredDevice :=
  newDevice sampleSha256 "Phone" sampleSecret 1000 2592001000 deviceDraw.device

def pairedDocument : StoredDocument :=
  { version := 1, revision := 1, devices := [samplePhone] }

def revokedDocument : StoredDocument :=
  { version := 1, revision := 2, devices := [{ samplePhone with revokedAt := some 1000 }] }

def sampleDecode (bytes : Bytes) : Except String StoredDocument :=
  if bytes = pairedDocument.encode then .ok pairedDocument
  else if bytes = revokedDocument.encode then .ok revokedDocument
  else .error "expected value"

def pairPhone : List AccessStep :=
  [.restart sampleConfig, .advance 1000, .begin 0 .issuePairing, .finish 0 tokenDraw .persisted,
    .begin 0 (.exchangePairing sampleToken "Phone"), .finish 0 deviceDraw .persisted,
    .begin 1 (.authenticate sampleSecret), .begin 0 (.revoke deviceDraw.device)]

def spareDraw : Draw :=
  { first := uuidOfNat 1, second := uuidOfNat 2, device := uuidOfNat 3 }

/-- The phone authenticates, a revocation fails cleanly, and another
succeeds before a restart. -/
def sampleRun : List AccessStep :=
  pairPhone ++ [.finish 1 spareDraw .persisted, .finish 0 spareDraw .failed,
    .begin 0 (.revoke deviceDraw.device), .finish 0 spareDraw .persisted,
    .restart sampleConfig, .begin 0 (.authenticate sampleSecret), .finish 0 spareDraw .persisted]

theorem remote_access_safe_sampleRun :
    .authenticated sampleSecret deviceDraw.device 1000 ∈
        (run sampleSha256 sampleDecode sampleRun).history ∧
      HistoryOk (run sampleSha256 sampleDecode sampleRun).history ∧
      (∀ token, exchanges token (run sampleSha256 sampleDecode sampleRun).history ≤ 1) ∧
      (∀ r ∈ (run sampleSha256 sampleDecode sampleRun).history,
        r = .restarted ∨ Made sampleRun r) ∧
      ∃ state, loadState sampleDecode (run sampleSha256 sampleDecode sampleRun).file = .ok state ∧
        ∀ process ∈ (run sampleSha256 sampleDecode sampleRun).process,
          state.devices = process.state.devices ∧ state.revision = process.state.revision := by
  have hrun : Meets (fun s i => Environment sampleSha256 sampleDecode s i ∧ persistsOnce i = true)
      (step sampleSha256 sampleDecode) fresh sampleRun := by decide +kernel
  have hsafe := remote_access_safe sampleSha256 sampleDecode sampleRun hrun
  refine ⟨by decide +kernel, ?_⟩
  exact And.imp_right (And.imp_right (And.imp_right And.left)) hsafe

def revocations (s : AccessSystem) : Option (List (Option Nat)) :=
  s.process.map fun process => process.state.devices.map (·.revokedAt)

def pairedProcess : Process :=
  { config := sampleConfig, state := { revision := 1, devices := [samplePhone], pairing := none } }

def revokedState : RemoteState :=
  { revision := 2, devices := [{ samplePhone with revokedAt := some 1000 }], pairing := none }

theorem pairPhone_run :
    (run sampleSha256 sampleDecode pairPhone).process = some pairedProcess ∧
      (run sampleSha256 sampleDecode pairPhone).call 0 =
        some { request := .revoke deviceDraw.device, now := 1000 } ∧
      (run sampleSha256 sampleDecode pairPhone).file ≠ some revokedState.document.encode := by
  decide +kernel

theorem revokedState_loads :
    openState sampleDecode sampleConfig (some revokedState.document.encode) = .ok revokedState := by
  decide +kernel

theorem revoke_effect :
    effect sampleSha256 pairedProcess { request := .revoke deviceDraw.device, now := 1000 }
      spareDraw = .persist revokedState (.revoked deviceDraw.device) :=
  rfl

theorem failed_revoke_run :
    (run sampleSha256 sampleDecode pairPhone).finish sampleSha256 sampleDecode 0 spareDraw
        .failedAfterReplace =
      replaceStore
        { run sampleSha256 sampleDecode pairPhone with
          call := Function.update (run sampleSha256 sampleDecode pairPhone).call 0 none }
        revokedState := by
  obtain ⟨hprocess, hpending, -⟩ := pairPhone_run
  rw [finish_eq hprocess hpending, revoke_effect, perform]

/-- A revocation that fails because the directory cannot be synced is not
in memory, but the store has it: it is there after a restart. -/
theorem failed_revoke_is_stored :
    ¬ (∀ sha256 decode steps c draw outcome,
        FailsCleanly sha256 decode (run sha256 decode steps) c draw outcome) ∧
      revocations (run sampleSha256 sampleDecode
        (pairPhone ++ [.finish 0 spareDraw .failedAfterReplace])) = some [none] ∧
      revocations (run sampleSha256 sampleDecode
        (pairPhone ++ [.finish 0 spareDraw .failedAfterReplace, .restart sampleConfig])) =
        some [some 1000] := by
  obtain ⟨hprocess, hpending, hfile⟩ := pairPhone_run
  generalize hpaired : run sampleSha256 sampleDecode pairPhone = paired at hprocess hpending hfile
  have hrun := failed_revoke_run
  rw [hpaired] at hrun
  refine ⟨fun h => ?_, ?_, ?_⟩
  · have hclean := h sampleSha256 sampleDecode pairPhone 0 spareDraw .failedAfterReplace
    rw [hpaired] at hclean
    obtain ⟨-, hsame⟩ := hclean pairedProcess _ revokedState _ hprocess hpending revoke_effect rfl
    rw [hrun] at hsame
    exact hfile hsame.symm
  · have hstep : run sampleSha256 sampleDecode
        (pairPhone ++ [.finish 0 spareDraw .failedAfterReplace]) =
        (run sampleSha256 sampleDecode pairPhone).finish sampleSha256 sampleDecode 0 spareDraw
          .failedAfterReplace := List.foldl_concat ..
    rw [hstep, hpaired, hrun, revocations, replaceStore, hprocess]
    rfl
  · have hstep : run sampleSha256 sampleDecode
        (pairPhone ++ [.finish 0 spareDraw .failedAfterReplace, .restart sampleConfig]) =
        restart sampleDecode ((run sampleSha256 sampleDecode pairPhone).finish sampleSha256
          sampleDecode 0 spareDraw .failedAfterReplace) sampleConfig :=
      List.foldl_append ..
    rw [hstep, hpaired, hrun, revocations, restart, replaceStore, revokedState_loads]
    rfl

end AccessSystem

end Tessivum.RemoteAccess
