/-
Tessivum.RemoteAccess.CallTheorems — what the calls of the remote access store
keep.

The committed history says everything: `livePairing` is the token it leaves
open and `withdrawn` the devices it revoked. `HistoryOk` is what a history has
to satisfy record by record, and a token then yields at most one device for
each time it was issued (`exchanges_le_pairings`).
-/
import Tessivum.RemoteAccess.Access
import Tessivum.RemoteAccess.StoreTheorems

namespace Tessivum.RemoteAccess

open Library Protocol List

/-! ## What a history says -/

/-- The token that is open after a history, and when it expires: the last
one issued, unless it was used or the process restarted. -/
def livePairing : List Record → Option (String × Nat)
  | [] => none
  | .paired token expiresAt :: _ => some (token, expiresAt)
  | .exchanged .. :: _ => none
  | .restarted :: _ => none
  | .authenticated .. :: rest => livePairing rest
  | .checked .. :: rest => livePairing rest
  | .revoked _ :: rest => livePairing rest
  | .revokedAll :: rest => livePairing rest

def Record.adds : Record → Option Uuid
  | .exchanged _ id _ _ _ => some id
  | _ => none

def issued (id : Uuid) (history : List Record) : Bool :=
  history.any fun r => r.adds == some id

def withdrawn (id : Uuid) : List Record → Bool
  | [] => false
  | .revoked other :: rest => (other == id && issued id rest) || withdrawn id rest
  | .revokedAll :: rest => issued id rest || withdrawn id rest
  | _ :: rest => withdrawn id rest

def IssuedAs (history : List Record) (id : Uuid) (secret : String) (expiresAt : Nat) : Prop :=
  ∃ token at', .exchanged token id secret at' expiresAt ∈ history

variable (token : String)

def Record.pairs : Record → Bool
  | .paired t _ => t == token
  | _ => false

def RecordOk (rest : List Record) : Record → Prop
  | .paired token _ => rest.countP (Record.pairs token) = 0
  | .exchanged token _ _ now _ => ∃ expiresAt, livePairing rest = some (token, expiresAt) ∧
      now < expiresAt
  | .authenticated secret id now => ∃ expiresAt, IssuedAs rest id secret expiresAt ∧
      now < expiresAt ∧ withdrawn id rest = false
  | .checked id now => ∃ secret expiresAt, IssuedAs rest id secret expiresAt ∧
      now < expiresAt ∧ withdrawn id rest = false
  | _ => True

def HistoryOk : List Record → Prop
  | [] => True
  | r :: rest => RecordOk rest r ∧ HistoryOk rest

def knownSecrets : List Record → List String
  | [] => []
  | .paired token _ :: rest => token :: knownSecrets rest
  | .exchanged _ _ secret _ _ :: rest => secret :: knownSecrets rest
  | _ :: rest => knownSecrets rest

def Record.uses : Record → Bool
  | .exchanged t _ _ _ _ => t == token
  | _ => false

def exchanges (history : List Record) : Nat := history.countP (Record.uses token)

/-! ## Facts about histories -/

variable {history : List Record} {id : Uuid} {expiresAt : Nat}

theorem withdrawn_eq_false_of_not_issued (h : issued id history = false) :
    withdrawn id history = false := by
  induction history with
  | nil => rfl
  | cons r rest ih =>
    simp only [issued, any_cons, or_eq_false_iff] at h
    have hrest : issued id rest = false := h.2
    cases r <;>
      simp only [withdrawn, hrest, ih hrest, Bool.and_false, Bool.or_false]

theorem livePairing_known {token : String} (h : livePairing history = some (token, expiresAt)) :
    token ∈ knownSecrets history := by
  induction history with
  | nil => cases h
  | cons r rest ih =>
    cases r with
    | paired t e =>
      cases h
      exact mem_cons_self
    | exchanged => cases h
    | restarted => cases h
    | authenticated | checked id now | revoked id | revokedAll => exact ih h

variable {secret : String}

theorem IssuedAs.known (h : IssuedAs history id secret expiresAt) :
    secret ∈ knownSecrets history := by
  obtain ⟨_, _, hmem⟩ := h
  induction history with
  | nil => cases hmem
  | cons r rest ih =>
    rcases mem_cons.mp hmem with rfl | hrest
    · exact mem_cons_self
    · cases r <;> simp [knownSecrets, ih hrest]

theorem IssuedAs.cons {history : List Record} {id : Uuid} {expiresAt : Nat}
    (h : IssuedAs history id secret expiresAt) (r : Record) :
    IssuedAs (r :: history) id secret expiresAt := by
  obtain ⟨token, at', hmem⟩ := h
  exact ⟨token, at', mem_cons_of_mem r hmem⟩

/-- A token yields at most one device for each time it was issued: the
device counts against the token that is open. -/
theorem exchanges_le_pairings (h : HistoryOk history) :
    exchanges token history + (if (livePairing history).map Prod.fst = some token then 1 else 0) ≤
      history.countP (Record.pairs token) := by
  induction history with
  | nil => simp [exchanges, livePairing]
  | cons r rest ih =>
    have hrest := ih h.2
    unfold exchanges at *
    rw [countP_cons, countP_cons]
    cases r with
    | paired t e =>
      simp only [Record.uses, Record.pairs, livePairing, map_some, some.injEq,
        beq_iff_eq, false_eq_true, if_false]
      split <;> omega
    | exchanged =>
      obtain ⟨expiresAt, hlive, -⟩ := h.1
      simp only [hlive, map_some, some.injEq] at hrest
      simp only [Record.uses, Record.pairs, livePairing, map_none, reduceCtorEq,
        beq_iff_eq, false_eq_true, if_false]
      omega
    | restarted =>
      simp only [Record.uses, Record.pairs, livePairing, map_none, reduceCtorEq,
        false_eq_true, if_false]
      omega
    | authenticated | checked id now | revoked id | revokedAll => exact hrest

theorem pairings_le_one (h : HistoryOk history) : history.countP (Record.pairs token) ≤ 1 := by
  induction history with
  | nil => exact Nat.zero_le _
  | cons r rest ih =>
    have hrest := ih h.2
    rw [countP_cons]
    cases r with
    | paired t e =>
      simp only [Record.pairs, beq_iff_eq]
      split
      · rename_i ht
        have hnew : rest.countP (Record.pairs t) = 0 := h.1
        rw [ht] at hnew
        omega
      · exact hrest
    | _ => exact hrest

/-! ## A state and its history -/

section
variable (sha256 : Bytes → Digest) {decode : Bytes → Except String StoredDocument}

/-- Every device of a state was added with its secret, and one that was
revoked is so. -/
structure Tracks (state : RemoteState) (history : List Record) : Prop where
  added : ∀ d ∈ state.devices, ∃ secret, IssuedAs history d.deviceId secret d.expiresAt ∧
    d.secretHash = hexHash (hashSecret sha256 secret)
  revoked : ∀ d ∈ state.devices, withdrawn d.deviceId history = true → d.revokedAt.isSome = true

/-- The pairing in memory is the one the history leaves open. -/
def PairingOk (state : RemoteState) (history : List Record) : Prop :=
  ∀ pairing ∈ state.pairing, ∃ token, livePairing history = some (token, pairing.expiresAt) ∧
    pairing.tokenHash = hashSecret sha256 token

structure Kept (state : RemoteState) (history : List Record) : Prop where
  valid : Valid state
  tracks : Tracks sha256 state history
  pairing : PairingOk sha256 state history

variable {sha256}

variable {r : Record}

theorem Tracks.cons {state : RemoteState} {history : List Record} (h : Tracks sha256 state history)
    (hr : ∀ id, withdrawn id (r :: history) = withdrawn id history) :
    Tracks sha256 state (r :: history) where
  added d hd := by
    obtain ⟨secret, hissued, hhash⟩ := h.added d hd
    exact ⟨secret, hissued.cons r, hhash⟩
  revoked d hd hwithdrawn := h.revoked d hd (hr d.deviceId ▸ hwithdrawn)

variable {history : List Record} {state state' : RemoteState}

theorem Tracks.of_devices (h : Tracks sha256 state history)
    (hdevices : state'.devices = state.devices) :
    Tracks sha256 state' history where
  added d hd := h.added d (hdevices ▸ hd)
  revoked d hd := h.revoked d (hdevices ▸ hd)

theorem Tracks.update (h : Tracks sha256 state history)
    (hsame : ∀ d' ∈ state'.devices, ∃ d ∈ state.devices, d'.deviceId = d.deviceId ∧
      d'.secretHash = d.secretHash ∧ d'.expiresAt = d.expiresAt ∧
      (d.revokedAt.isSome = true → d'.revokedAt.isSome = true))
    (hr : ∀ d' ∈ state'.devices, withdrawn d'.deviceId (r :: history) = true →
      withdrawn d'.deviceId history = true ∨ d'.revokedAt.isSome = true) :
    Tracks sha256 state' (r :: history) where
  added d' hd' := by
    obtain ⟨d, hd, hid, hhash, hexpires, -⟩ := hsame d' hd'
    obtain ⟨secret, hissued, hsecret⟩ := h.added d hd
    refine ⟨secret, ?_, hhash.trans hsecret⟩
    rw [hid, hexpires]
    exact hissued.cons r
  revoked d' hd' hwithdrawn := by
    rcases hr d' hd' hwithdrawn with hbefore | hnow
    · obtain ⟨d, hd, hid, -, -, hkeeps⟩ := hsame d' hd'
      exact hkeeps (h.revoked d hd (hid ▸ hbefore))
    · exact hnow

/-! ## Valid states -/

theorem bump_revision_lt (state : RemoteState) : state.bump.revision < u64Bound := by
  have hpos : 0 < u64Bound := by decide
  simp only [RemoteState.bump]
  omega

theorem Valid.mapped (h : Valid state) {f : StoredDevice → StoredDevice}
    (hid : ∀ d, (f d).deviceId = d.deviceId)
    (hvalid : ∀ d ∈ state.devices, ValidDevice d → ValidDevice (f d)) :
    Valid { state.bump with devices := state.devices.map f } where
  ordered := h.ordered.map hid
  count := by simpa using h.count
  devices d' hd' := by
    obtain ⟨d, hd, rfl⟩ := mem_map.mp hd'
    exact hvalid d hd (h.devices d hd)
  revision := bump_revision_lt state

/-! ## What is assumed -/

variable (sha256) in
/-- A supplied string has the hash of a secret only if it is that secret. -/
def NoCollision (history : List Record) (supplied : String) : Prop :=
  ∀ secret ∈ knownSecrets history,
    hashSecret sha256 secret = hashSecret sha256 supplied → secret = supplied

instance (sha256 : Bytes → Digest) (history : List Record) (supplied : String) :
    Decidable (NoCollision sha256 history supplied) :=
  inferInstanceAs (Decidable (∀ secret ∈ knownSecrets history, _))

def Request.supplied : Request → Option String
  | .exchangePairing token _ => some token
  | .authenticate secret => some secret
  | _ => none

/-- The id and the token drawn are new. -/
structure NewDraw (history : List Record) (draw : Draw) : Prop where
  device : issued draw.device history = false
  token : history.countP (Record.pairs (randomSecret "tvp" draw.first draw.second)) = 0

instance (history : List Record) (draw : Draw) : Decidable (NewDraw history draw) :=
  decidable_of_iff
    (issued draw.device history = false ∧
      history.countP (Record.pairs (randomSecret "tvp" draw.first draw.second)) = 0)
    ⟨fun ⟨hdevice, htoken⟩ => ⟨hdevice, htoken⟩, fun ⟨hdevice, htoken⟩ => ⟨hdevice, htoken⟩⟩

/-! ## Calls -/

/-- What an effect leaves: a state kept with the record, and a record in
order. A call that does not persist leaves the devices. -/
def Effect.Ok (sha256 : Bytes → Digest) (state : RemoteState) (history : List Record) :
    Effect → Prop
  | .done state' record => Kept sha256 state' (record.toList ++ history) ∧
      (∀ r ∈ record, RecordOk history r) ∧ state'.devices = state.devices ∧
      state'.revision = state.revision
  | .persist candidate record => Kept sha256 candidate (record :: history) ∧
      RecordOk history record

section
variable {state : RemoteState} {history : List Record} {now : Nat} {draw : Draw}

theorem Kept.unchanged (h : Kept sha256 state history) :
    Effect.Ok sha256 state history (.done state none) :=
  ⟨h, nofun, rfl, rfl⟩

theorem Kept.noted (h : Kept sha256 state history) {r : Record}
    (hwithdrawn : ∀ id, withdrawn id (r :: history) = withdrawn id history)
    (hlive : livePairing (r :: history) = livePairing history) :
    Kept sha256 state (r :: history) where
  valid := h.valid
  tracks := h.tracks.cons hwithdrawn
  pairing pairing hp := by
    rw [hlive]
    exact h.pairing pairing hp

theorem issuePairing_ok (h : Kept sha256 state history) (config : RemoteAccessConfig)
    (hnew : NewDraw history draw) :
    Effect.Ok sha256 state history (issuePairing sha256 config state now draw) := by
  unfold issuePairing
  split
  · exact h.unchanged
  · rename_i expiresAt hexpires
    refine ⟨⟨⟨h.valid.ordered, h.valid.count, h.valid.devices, h.valid.revision⟩,
      (h.tracks.cons fun _ => rfl).of_devices rfl, ?_⟩, fun r hr => ?_, rfl, rfl⟩
    · intro pairing hp
      cases hp
      exact ⟨_, rfl, rfl⟩
    · cases hr
      exact hnew.token

theorem addDuration_eq_ok {duration total : Nat} (h : addDuration now duration = .ok total) :
    now ≤ total ∧ total < u64Bound := by
  unfold addDuration at h
  dsimp only at h
  split at h
  · rename_i hlt
    cases h
    exact ⟨Nat.le_add_right _ _, hlt⟩
  · cases h

variable {d : StoredDevice} {secret : String} {id : Uuid}

theorem prune_subset (h : d ∈ (pruneInactiveDevices state now).devices) : d ∈ state.devices :=
  (mem_filter.mp h).1

section

variable (h : Kept sha256 state history)

include h

/-- An exchange keeps the store and its history in step. -/
theorem exchangePairing_ok (config : RemoteAccessConfig)
    {token deviceName : String} (hname : validateDeviceName deviceName = .ok ())
    (hnew : NewDraw history draw) (hsha : NoCollision sha256 history token) :
    Effect.Ok sha256 state history
      (exchangePairing sha256 config state token deviceName now draw) := by
  unfold exchangePairing
  split
  · exact h.unchanged
  · rename_i pairing hpairing
    split
    · refine ⟨⟨⟨h.valid.ordered, h.valid.count, h.valid.devices, h.valid.revision⟩,
        h.tracks.of_devices rfl, nofun⟩, nofun, rfl, rfl⟩
    · rename_i hexpired
      split
      · exact h.unchanged
      · rename_i htoken
        dsimp only
        split
        · exact h.unchanged
        · rename_i hroom
          split
          · exact h.unchanged
          · rename_i expiresAt hexpires
            obtain ⟨hnow, hbound⟩ := addDuration_eq_ok hexpires
            obtain ⟨open', hlive, hhash⟩ := h.pairing pairing hpairing
            have hsame : open' = token :=
              hsha open' (livePairing_known hlive) (hhash.symm.trans (not_not.mp htoken))
            refine ⟨⟨⟨?_, ?_, ?_, bump_revision_lt _⟩, ⟨?_, ?_⟩, nofun⟩,
              pairing.expiresAt, hsame ▸ hlive, not_le.mp hexpired⟩
            · exact Ordered.insertDevice (h.valid.ordered.filter _) _
            · have hlen := length_insertDevice_le (newDevice sha256 deviceName
                (randomSecret "tvs" draw.first draw.second) now expiresAt draw.device)
                (pruneInactiveDevices state now).devices
              exact le_trans hlen (not_le.mp hroom)
            · intro d hd
              rcases mem_insertDevice hd with rfl | hmem
              · exact { name := hname, hash := by simp [newDevice, decodeHash_hexHash]
                        created := le_refl _, active := hnow, expires := hbound
                        revoked := fun _ hr => nomatch hr }
              · exact h.valid.devices d (prune_subset hmem)
            · intro d hd
              rcases mem_insertDevice hd with rfl | hmem
              · exact ⟨_, ⟨token, now, mem_cons_self⟩, rfl⟩
              · obtain ⟨secret, hissued, hsecret⟩ := h.tracks.added d (prune_subset hmem)
                exact ⟨secret, hissued.cons _, hsecret⟩
            · intro d hd hwithdrawn
              rcases mem_insertDevice hd with rfl | hmem
              · -- a new id was never revoked
                have hfalse := withdrawn_eq_false_of_not_issued hnew.device
                exact absurd hwithdrawn (by
                  rw [show withdrawn _ (_ :: history) = withdrawn draw.device history from rfl,
                    hfalse]
                  exact Bool.false_ne_true)
              · exact h.tracks.revoked d (prune_subset hmem) hwithdrawn

theorem findSecret_issued (hsha : NoCollision sha256 history secret)
    (hfind : findSecret state (hashSecret sha256 secret) = some d) :
    d ∈ state.devices ∧ IssuedAs history d.deviceId secret d.expiresAt := by
  have hmem := mem_of_find?_eq_some hfind
  have hhash := find?_some hfind
  obtain ⟨secret', hissued, hsecret⟩ := h.tracks.added d hmem
  rw [hsecret, decodeHash_hexHash, beq_iff_eq, some.injEq] at hhash
  obtain rfl := hsha secret' hissued.known hhash
  exact ⟨hmem, hissued⟩

theorem Kept.not_withdrawn (hd : d ∈ state.devices)
    (hrevoked : ¬ d.revokedAt.isSome = true) : withdrawn d.deviceId history = false := by
  cases hcase : withdrawn d.deviceId history with
  | false => rfl
  | true => exact absurd (h.tracks.revoked d hd hcase) hrevoked

/-- An authentication keeps the store and its history in step. -/
theorem authenticate_ok (hsha : NoCollision sha256 history secret) :
    Effect.Ok sha256 state history (authenticate sha256 state secret now) := by
  unfold authenticate
  split
  · exact h.unchanged
  · rename_i d hfind
    obtain ⟨hd, hissued⟩ := findSecret_issued h hsha hfind
    split
    · exact h.unchanged
    · rename_i hrevoked
      split
      · exact h.unchanged
      · rename_i hexpired
        have hrecord : RecordOk history (.authenticated secret d.deviceId now) :=
          ⟨d.expiresAt, hissued, not_le.mp hexpired, h.not_withdrawn hd hrevoked⟩
        dsimp only
        split
        · rename_i hinterval
          have hactive : activityPersistInterval = 60000 := rfl
          refine ⟨⟨?_, h.tracks.update ?_ fun d' _ hw => .inl hw, h.pairing⟩, hrecord⟩
          · refine h.valid.mapped (fun x => by split <;> rfl) fun x hx hvalid => ?_
            split
            · rename_i hid
              obtain rfl := h.valid.ordered.eq_of_id hx hd hid
              have hcreated := hvalid.created
              exact { hvalid with
                created := by dsimp only; omega
                active := by dsimp only; omega }
            · exact hvalid
          · intro d' hd'
            obtain ⟨x, hx, rfl⟩ := mem_map.mp hd'
            refine ⟨x, hx, ?_⟩
            split <;> exact ⟨rfl, rfl, rfl, id⟩
        · exact ⟨h.noted (fun _ => rfl) rfl, fun r hr => by cases hr; exact hrecord, rfl, rfl⟩

end

theorem findDevice_mem (h : findDevice state id = some d) : d ∈ state.devices ∧ d.deviceId = id :=
  ⟨mem_of_find?_eq_some h, by simpa using find?_some h⟩

theorem checkDevice_ok (h : Kept sha256 state history) (id : Uuid) :
    Effect.Ok sha256 state history (checkDevice state id now) := by
  unfold checkDevice
  split
  · exact h.unchanged
  · rename_i d hfind
    obtain ⟨hd, rfl⟩ := findDevice_mem hfind
    split
    · exact h.unchanged
    · rename_i hrevoked
      split
      · exact h.unchanged
      · rename_i hexpired
        obtain ⟨secret, hissued, -⟩ := h.tracks.added d hd
        refine ⟨h.noted (fun _ => rfl) rfl, fun r hr => ?_, rfl, rfl⟩
        cases hr
        exact ⟨secret, d.expiresAt, hissued, not_le.mp hexpired, h.not_withdrawn hd hrevoked⟩

theorem withdrawn_revoked {other : Uuid} (h : withdrawn other (.revoked id :: history) = true) :
    withdrawn other history = true ∨ other = id := by
  simp only [withdrawn, or_eq_true, and_eq_true, beq_iff_eq] at h
  rcases h with ⟨hid, -⟩ | hbefore
  · exact .inr hid.symm
  · exact .inl hbefore

/-- A revocation keeps the store and its history in step. -/
theorem revoke_ok (h : Kept sha256 state history) (id : Uuid) (hnow : now < u64Bound) :
    Effect.Ok sha256 state history (revoke state id now) := by
  unfold revoke
  split
  · exact h.unchanged
  · rename_i hfind
    obtain ⟨hd, rfl⟩ := findDevice_mem hfind
    split
    · rename_i hrevoked
      refine ⟨⟨h.valid, h.tracks.update ?_ fun x hx hw => ?_, h.pairing⟩, fun r hr => ?_, rfl, rfl⟩
      · exact fun x hx => ⟨x, hx, rfl, rfl, rfl, id⟩
      · refine (withdrawn_revoked hw).imp_right fun hid => ?_
        rw [h.valid.ordered.eq_of_id hx hd hid]
        exact hrevoked
      · cases hr
        trivial
    · refine ⟨⟨?_, h.tracks.update ?_ fun d' hd' hw => ?_, h.pairing⟩, trivial⟩
      · refine h.valid.mapped (fun x => by split <;> rfl) fun x hx hvalid => ?_
        split
        · refine { hvalid with revoked := fun at' hat => ?_ }
          cases hat
          exact hnow
        · exact hvalid
      · intro d' hd'
        obtain ⟨x, hx, rfl⟩ := mem_map.mp hd'
        refine ⟨x, hx, ?_⟩
        split
        · exact ⟨rfl, rfl, rfl, fun _ => rfl⟩
        · exact ⟨rfl, rfl, rfl, id⟩
      · refine (withdrawn_revoked hw).imp_right fun hid => ?_
        obtain ⟨x, _, rfl⟩ := mem_map.mp hd'
        split at hid
        · rename_i heq
          rw [if_pos heq]
          rfl
        · rename_i hne
          exact absurd hid hne

theorem revokeAt_isSome (d : StoredDevice) : (d.revokeAt now).revokedAt.isSome = true := by
  unfold StoredDevice.revokeAt
  split
  · assumption
  · rfl

/-- Revoking everything keeps the store and its history in step. -/
theorem revokeAll_ok (h : Kept sha256 state history) (hnow : now < u64Bound) :
    Effect.Ok sha256 state history (revokeAll state now) := by
  unfold revokeAll
  split
  · rename_i hall
    refine ⟨⟨h.valid, h.tracks.update ?_ fun x hx _ => .inr ?_, h.pairing⟩, fun r hr => ?_, rfl, rfl⟩
    · exact fun x hx => ⟨x, hx, rfl, rfl, rfl, id⟩
    · exact all_eq_true.mp hall x hx
    · cases hr
      trivial
  · refine ⟨⟨?_, h.tracks.update ?_ fun d' hd' _ => .inr ?_, h.pairing⟩, trivial⟩
    · refine h.valid.mapped (fun x => ?_) fun x hx hvalid => ?_
      · unfold StoredDevice.revokeAt
        split <;> rfl
      · unfold StoredDevice.revokeAt
        split
        · exact hvalid
        · refine { hvalid with revoked := fun at' hat => ?_ }
          cases hat
          exact hnow
    · intro d' hd'
      obtain ⟨x, hx, rfl⟩ := mem_map.mp hd'
      refine ⟨x, hx, ?_⟩
      unfold StoredDevice.revokeAt
      split
      · exact ⟨rfl, rfl, rfl, id⟩
      · exact ⟨rfl, rfl, rfl, fun _ => rfl⟩
    · obtain ⟨x, _, rfl⟩ := mem_map.mp hd'
      exact revokeAt_isSome x

end

end

end Tessivum.RemoteAccess
