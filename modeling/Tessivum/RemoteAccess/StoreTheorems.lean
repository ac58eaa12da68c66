/-
Tessivum.RemoteAccess.StoreTheorems — a store that is written is one that
loads.

`Valid` says what every mutation has to keep of the devices: in order of
their ids, at most as many as fit, each record one that `load_state`
accepts, all numbers in range. The document of such a state has a bounded
size (`encode_length_le`) and loads to the same devices
(`loadState_document`). A hash
reads back from its hexadecimal form.
-/
import Tessivum.RemoteAccess.Store

namespace Tessivum.RemoteAccess

open Library Protocol List

/-! ## Hexadecimal -/

theorem hexDigitValue_hexDigit : ∀ n < 16, hexDigitValue (hexDigit n) = some n := by decide

theorem utf8Size_hexDigit : ∀ n < 16, (hexDigit n).utf8Size = 1 := by decide

theorem decodePairs_hexDigits (bytes : Bytes) :
    decodePairs (bytes.flatMap hexDigits) = some bytes := by
  induction bytes with
  | nil => rfl
  | cons b rest ih =>
    have hb := b.toNat_lt
    simp only [flatMap_cons, hexDigits, cons_append, nil_append, decodePairs,
      hexDigitValue_hexDigit _ (show b.toNat / 16 < 16 by omega),
      hexDigitValue_hexDigit _ (show b.toNat % 16 < 16 by omega)]
    rw [ih]
    have hbyte : UInt8.ofNat (b.toNat / 16 * 16 + b.toNat % 16) = b := by
      rw [show b.toNat / 16 * 16 + b.toNat % 16 = b.toNat by omega]
      exact UInt8.ofNat_toNat
    exact congrArg (fun x => some (x :: rest)) hbyte

def byteLen (cs : List Char) : Nat := (cs.flatMap String.utf8EncodeChar).length

@[simp] theorem byteLen_nil : byteLen [] = 0 := rfl

@[simp] theorem byteLen_append (xs ys : List Char) :
    byteLen (xs ++ ys) = byteLen xs + byteLen ys := by
  simp [byteLen]

@[simp] theorem byteLen_cons (c : Char) (cs : List Char) :
    byteLen (c :: cs) = c.utf8Size + byteLen cs := by
  simp [byteLen]

theorem byteLen_hexDigits (bytes : Bytes) :
    byteLen (bytes.flatMap hexDigits) = 2 * bytes.length := by
  induction bytes with
  | nil => rfl
  | cons b rest ih =>
    have hb := b.toNat_lt
    rw [flatMap_cons, byteLen_append, ih, length_cons]
    simp only [hexDigits, byteLen_cons, byteLen_nil,
      utf8Size_hexDigit _ (show b.toNat / 16 < 16 by omega),
      utf8Size_hexDigit _ (show b.toNat % 16 < 16 by omega)]
    omega

theorem decodeHash_hexHash (hash : Digest) : decodeHash (hexHash hash) = some hash := by
  have hlen : (utf8 (hexHash hash)).length = 64 := by
    have hbytes := byteLen_hexDigits hash.1
    rw [hash.2] at hbytes
    simpa [utf8, hexHash, byteLen] using hbytes
  have hpairs : decodePairs (hexHash hash).toList = some hash.1 := by
    simpa [hexHash] using decodePairs_hexDigits hash.1
  unfold decodeHash
  rw [if_neg (by omega), hpairs]
  simp [hash.2]

/-! ## Maps of devices -/

def Ordered (devices : List StoredDevice) : Prop :=
  devices.Pairwise fun a b => a.deviceId < b.deviceId

variable {d : StoredDevice} {devices : List StoredDevice} {n : Nat}

theorem mem_insertDevice {x : StoredDevice} (h : x ∈ insertDevice d devices) :
    x = d ∨ x ∈ devices := by
  induction devices with
  | nil => exact .inl (by simpa [insertDevice] using h)
  | cons y rest ih =>
    unfold insertDevice at h
    split at h
    · simpa using h
    · split at h
      · rcases mem_cons.mp h with rfl | hmem
        · exact .inl rfl
        · exact .inr (mem_cons_of_mem y hmem)
      · rcases mem_cons.mp h with rfl | hmem
        · exact .inr mem_cons_self
        · exact (ih hmem).imp_right (mem_cons_of_mem y)

theorem Ordered.insertDevice (h : Ordered devices) (d : StoredDevice) :
    Ordered (insertDevice d devices) := by
  induction devices with
  | nil => exact pairwise_singleton _ _
  | cons x rest ih =>
    obtain ⟨hx, hrest⟩ := pairwise_cons.mp h
    unfold RemoteAccess.insertDevice
    split
    · rename_i hlt
      refine pairwise_cons.mpr ⟨fun y hy => ?_, h⟩
      rcases mem_cons.mp hy with rfl | hmem
      · exact hlt
      · exact lt_trans hlt (hx y hmem)
    · rename_i hge
      split
      · rename_i heq
        exact pairwise_cons.mpr ⟨fun y hy => heq ▸ hx y hy, hrest⟩
      · rename_i hne
        refine pairwise_cons.mpr ⟨fun y hy => ?_, ih hrest⟩
        rcases mem_insertDevice hy with rfl | hmem
        · exact lt_of_le_of_ne (not_lt.mp hge) fun heq => hne heq.symm
        · exact hx y hmem

theorem length_insertDevice_le (d : StoredDevice) (devices : List StoredDevice) :
    (insertDevice d devices).length ≤ devices.length + 1 := by
  induction devices with
  | nil => simp [insertDevice]
  | cons =>
    unfold insertDevice
    split
    · simp
    · split
      · simp
      · simp only [length_cons]
        omega

theorem insertDevice_last (h : ∀ x ∈ devices, x.deviceId < d.deviceId) :
    insertDevice d devices = devices ++ [d] := by
  induction devices with
  | nil => rfl
  | cons x rest ih =>
    have hx := h x mem_cons_self
    unfold insertDevice
    rw [if_neg (not_lt.mpr hx.le), if_neg hx.ne',
      ih fun y hy => h y (mem_cons_of_mem x hy)]
    rfl

theorem Ordered.map (h : Ordered devices) {f : StoredDevice → StoredDevice}
    (hf : ∀ d, (f d).deviceId = d.deviceId) : Ordered (devices.map f) :=
  List.Pairwise.map f (fun a b hab => by rw [hf, hf]; exact hab) h

theorem Ordered.eq_of_id (h : Ordered devices) {a b : StoredDevice} (ha : a ∈ devices)
    (hb : b ∈ devices) (hid : a.deviceId = b.deviceId) : a = b := by
  by_contra hne
  rcases List.Pairwise.forall_of_forall_of_flip (R := fun a b : StoredDevice =>
    a ≠ b → a.deviceId ≠ b.deviceId) (fun x _ hx => absurd rfl hx)
    (h.imp fun hab _ => hab.ne) (h.imp fun hab _ => hab.ne') ha hb hne hid

/-! ## What a state keeps -/

/-- A record `load_state` accepts, with its numbers in range. -/
structure ValidDevice (d : StoredDevice) : Prop where
  name : validateDeviceName d.name = .ok ()
  hash : (decodeHash d.secretHash).isSome = true
  created : d.createdAt ≤ d.lastActivityAt
  active : d.lastActivityAt ≤ d.expiresAt
  expires : d.expiresAt < u64Bound
  revoked : ∀ at' ∈ d.revokedAt, at' < u64Bound

/-- What every mutation keeps of the devices and the revision. -/
structure Valid (state : RemoteState) : Prop where
  ordered : Ordered state.devices
  count : state.devices.length ≤ maxDevices
  devices : ∀ d ∈ state.devices, ValidDevice d
  revision : state.revision < u64Bound

theorem empty_valid : Valid .empty where
  ordered := List.Pairwise.nil
  count := Nat.zero_le _
  devices d hd := nomatch hd
  revision := by decide

/-! ## The size of a document -/

theorem length_le_byteLen (cs : List Char) : cs.length ≤ byteLen cs := by
  induction cs with
  | nil => simp
  | cons c =>
    have := c.utf8Size_pos
    rw [byteLen_cons, length_cons]
    omega

theorem byteLen_le (cs : List Char) : byteLen cs ≤ 4 * cs.length := by
  induction cs with
  | nil => simp
  | cons c =>
    have := c.utf8Size_le_four
    rw [byteLen_cons, length_cons]
    omega

theorem byteLen_jsonChar_le (c : Char) : byteLen (jsonChar c) ≤ 6 := by
  have hescape : byteLen (['\\', 'u', '0', '0'] ++ hexNat 2 c.toNat) = 6 := by
    have hu : byteLen ['\\', 'u', '0', '0'] = 4 := by decide
    have hhex : byteLen (hexNat 2 c.toNat) = 2 := by
      simp [hexNat, utf8Size_hexDigit _ (Nat.mod_lt _ (show 0 < 16 by omega))]
    rw [byteLen_append, hu, hhex]
  have hplain : byteLen [c] ≤ 4 := byteLen_le [c]
  unfold jsonChar
  repeat' split
  all_goals first
    | decide
    | exact le_of_eq hescape
    | exact le_trans hplain (by omega)

theorem byteLen_jsonString_le (cs : List Char) : byteLen (jsonString cs) ≤ 6 * cs.length + 2 := by
  have hchars : byteLen (cs.flatMap jsonChar) ≤ 6 * cs.length := by
    induction cs with
    | nil => simp
    | cons c =>
      have := byteLen_jsonChar_le c
      rw [flatMap_cons, byteLen_append, length_cons]
      omega
  have hquote : ('"' : Char).utf8Size = 1 := by decide
  simp only [jsonString, byteLen_cons, byteLen_append, byteLen_nil, hquote]
  omega

theorem byteLen_jsonNumber_le (h : n < u64Bound) : byteLen (jsonNumber n) ≤ 80 := by
  have hlen : (Nat.toDigits 10 n).length ≤ 20 := by
    rw [Nat.length_toDigits_le_iff (by omega) (by omega)]
    exact lt_trans h (by decide)
  have := byteLen_le (jsonNumber n)
  unfold jsonNumber at *
  omega

theorem byteLen_jsonOption_le {value : Option Nat} (h : ∀ n ∈ value, n < u64Bound) :
    byteLen (jsonOption value) ≤ 80 := by
  cases value with
  | none => decide
  | some n => exact byteLen_jsonNumber_le (h n rfl)

theorem hyphenated_length_le (u : Uuid) : (Uuid.hyphenated u).length ≤ 36 := by
  simp [Uuid.hyphenated, Uuid.simple]

theorem name_length_le {name : String} (h : validateDeviceName name = .ok ()) :
    name.toList.length ≤ 128 := by
  unfold validateDeviceName at h
  split at h
  · cases h
  · rename_i hcond
    simp only [not_or, not_lt] at hcond
    exact le_trans (length_le_byteLen _) hcond.2.2.1

theorem hash_length_le {value : String} (h : (decodeHash value).isSome = true) :
    value.toList.length ≤ 64 := by
  unfold decodeHash at h
  split at h
  · cases h
  · rename_i hlen
    have hbytes : byteLen value.toList = 64 := not_not.mp hlen
    exact hbytes ▸ length_le_byteLen _

theorem byteLen_append_le {xs ys : List Char} {m n : Nat} (hx : byteLen xs ≤ m)
    (hy : byteLen ys ≤ n) : byteLen (xs ++ ys) ≤ m + n := by
  rw [byteLen_append]
  exact Nat.add_le_add hx hy

theorem byteLen_jsonField_le (before : Char) (key : String) {value : List Char}
    (hkey : key.toList.length ≤ 14) (hvalue : byteLen value ≤ n) :
    byteLen (jsonField before key value) ≤ n + 72 := by
  have hbefore := before.utf8Size_le_four
  have hname := byteLen_le key.toList
  have hquote : ('"' : Char).utf8Size = 1 := by decide
  have hcolon : (':' : Char).utf8Size = 1 := by decide
  simp only [jsonField, byteLen_cons, byteLen_append, hquote, hcolon]
  omega

theorem byteLen_jsonString_le_of {cs : List Char} (h : cs.length ≤ n) :
    byteLen (jsonString cs) ≤ 6 * n + 2 := by
  have := byteLen_jsonString_le cs
  omega

theorem byteLen_text_le {d : StoredDevice} (h : ValidDevice d) : byteLen d.text ≤ 2300 := by
  have hactive := lt_of_le_of_lt h.active h.expires
  have hcreated := byteLen_jsonNumber_le (lt_of_le_of_lt h.created hactive)
  have hid := byteLen_jsonField_le '\x7b' "deviceId" (by decide)
    (byteLen_jsonString_le_of (hyphenated_length_le d.deviceId))
  have hname := byteLen_jsonField_le ',' "name" (by decide)
    (byteLen_jsonString_le_of (name_length_le h.name))
  have hhash := byteLen_jsonField_le ',' "secretHash" (by decide)
    (byteLen_jsonString_le_of (hash_length_le h.hash))
  have hcreatedField := byteLen_jsonField_le ',' "createdAt" (by decide) hcreated
  have hlast := byteLen_jsonField_le ',' "lastActivityAt" (by decide)
    (byteLen_jsonNumber_le hactive)
  have hexpires := byteLen_jsonField_le ',' "expiresAt" (by decide)
    (byteLen_jsonNumber_le h.expires)
  have hrevoked := byteLen_jsonField_le ',' "revokedAt" (by decide)
    (byteLen_jsonOption_le h.revoked)
  have htotal := byteLen_append_le (byteLen_append_le (byteLen_append_le (byteLen_append_le
    (byteLen_append_le (byteLen_append_le (byteLen_append_le hid hname) hhash) hcreatedField)
    hlast) hexpires) hrevoked) (byteLen_le ['\x7d'])
  exact le_trans htotal (by decide)

theorem byteLen_devicesText_le : ∀ {devices : List StoredDevice},
    (∀ d ∈ devices, ValidDevice d) → byteLen (devicesText devices) ≤ 2301 * devices.length
  | [], _ => by simp [devicesText]
  | [d], h => by
    have := byteLen_text_le (h d mem_cons_self)
    simp only [devicesText, length_singleton]
    omega
  | d :: x :: rest, h => by
    have hfirst := byteLen_text_le (h d mem_cons_self)
    have hrest := byteLen_devicesText_le fun y hy => h y (mem_cons_of_mem d hy)
    have hcomma : (',' : Char).utf8Size = 1 := by decide
    simp only [devicesText, byteLen_append, byteLen_cons, hcomma, length_cons] at *
    omega

variable {state : RemoteState}

theorem encode_length_le (h : Valid state) : state.document.encode.length ≤ maxStoreBytes := by
  have hversion := byteLen_jsonField_le '\x7b' "version" (by decide)
    (byteLen_jsonNumber_le (show storeVersion < u64Bound by decide))
  have hrevision := byteLen_jsonField_le ',' "revision" (by decide)
    (byteLen_jsonNumber_le h.revision)
  have hlist : byteLen ('[' :: devicesText state.devices) ≤ 2301 * 256 + 1 := by
    have hdevices := byteLen_devicesText_le h.devices
    have hcount : state.devices.length ≤ 256 := h.count
    have hbracket : ('[' : Char).utf8Size = 1 := by decide
    rw [byteLen_cons, hbracket]
    omega
  have hdevices := byteLen_jsonField_le ',' "devices" (by decide) hlist
  have htotal := byteLen_append_le (byteLen_append_le (byteLen_append_le hversion hrevision)
    hdevices) (byteLen_le [']', '\x7d'])
  exact le_trans htotal (by decide)

/-! ## Loading what was written -/

theorem loadDevices_ordered : ∀ {rest : List StoredDevice} (devices : List StoredDevice),
    Ordered (devices ++ rest) → (∀ d ∈ rest, ValidDevice d) →
    loadDevices devices rest = .ok (devices ++ rest)
  | [], devices, _, _ => by simp [loadDevices]
  | d :: rest, devices, hordered, hvalid => by
    have hd := hvalid d mem_cons_self
    have hbefore : ∀ x ∈ devices, x.deviceId < d.deviceId := fun x hx =>
      (pairwise_append.mp hordered).2.2 x hx d mem_cons_self
    have hnew : devices.any (·.deviceId == d.deviceId) = false := by
      rw [any_eq_false]
      intro x hx heq
      exact (hbefore x hx).ne (by simpa using heq)
    have hhash : (decodeHash d.secretHash).isNone = false := by
      have := hd.hash
      cases hcase : decodeHash d.secretHash <;> simp_all
    have hcreated := hd.created
    have hactive := hd.active
    rw [loadDevices, hd.name, mapError_ok, ok_bind, if_neg, insertDevice_last hbefore,
      loadDevices_ordered (devices ++ [d])]
    · simp
    · simpa using hordered
    · exact fun x hx => hvalid x (mem_cons_of_mem d hx)
    · simp only [hhash, hnew, false_eq_true, false_or, or_false, not_or, not_lt]
      exact ⟨hcreated, hactive⟩

theorem loadState_document {decode : Bytes → Except String StoredDocument} (h : Valid state)
    (hdecode : decode state.document.encode = .ok state.document) :
    loadState decode (some state.document.encode) = .ok { state with pairing := none } := by
  have hsize := encode_length_le h
  have hdevices := loadDevices_ordered [] (by simpa using h.ordered) h.devices
  have hcount := h.count
  rw [loadState, if_neg (by omega), hdecode, mapError_ok, ok_bind, if_neg]
  · simp only [RemoteState.document, hdevices, ok_bind, nil_append]
  · simp only [RemoteState.document, ne_eq, not_true_eq_false, false_or, not_lt]
    exact hcount

end Tessivum.RemoteAccess
