/-
Tessivum.Attachments.StoreTheorems — when saved attachments stay readable.

A failed batch removes the files it has made. It does not know who else has
found such a file in between, or has written it too, so another call's
reference may lose its bytes (`saved_then_removed`).

Where no rollback removes a file that another call holds, and removals succeed,
what a call has saved stays (`Sound.kept`), and what a failed batch has made is
gone (`Accounted`). The digest is assumed to be injective on the contents at
hand: the files there at first and the inputs.
-/
import Tessivum.Attachments.Store
import Tessivum.Library.Machine

namespace Tessivum.Attachments

open Library Protocol List AttachmentSystem

variable {sha256 : Bytes → Digest} {limits : AttachmentLimits}

/-! ## Who holds a file -/

/-- The call may still return what it has saved, or has returned it. -/
def Phase.holds : Phase → Bool
  | .probing | .reading | .opening | .moving => true
  | .cleaning | .rolling .. => false
  | .returned result => result.isOk

def SaveCall.held (sha256 : Bytes → Digest) (call : SaveCall) : List (List Char) :=
  if call.phase.holds then call.saved.map (SaveItem.file sha256) else []

def SaveCall.made (call : SaveCall) : List (List Char) :=
  match call.phase with
  | .rolling rest _ => rest
  | .returned (.error _) => []
  | .probing | .reading | .opening | .moving | .cleaning | .returned (.ok _) => call.created

/-- Nobody but the call `i` holds the file. -/
def AttachmentSystem.unheld (sha256 : Bytes → Digest) (s : AttachmentSystem) (i : Nat)
    (file : List Char) : Bool :=
  s.calls.zipIdx.all fun x => x.2 == i || !(x.1.held sha256).contains file

/-- A rollback removes what nobody else holds, and what it removes goes. -/
def careful (sha256 : Bytes → Digest) (s : AttachmentSystem) : AttachmentStep → Bool
  | .advance i succeeds =>
    match s.calls[i]? with
    | none => true
    | some call =>
      match call.phase with
      | .rolling (file :: _) _ => succeeds && s.unheld sha256 i file
      | .cleaning => succeeds
      | _ => true
  | .save _ | .saveBatch _ => true

def Careful (sha256 : Bytes → Digest) (s : AttachmentSystem) (i : AttachmentStep) : Prop :=
  careful sha256 s i = true

instance (sha256 : Bytes → Digest) (s : AttachmentSystem) (i : AttachmentStep) :
    Decidable (Careful sha256 s i) := inferInstanceAs (Decidable (careful sha256 s i = true))

variable {file : List Char} {j : Nat} {input : AttachmentInput} {item : SaveItem}
  {inputs : List AttachmentInput} {rest : List SaveItem} {call' : SaveCall} {existing : Bytes}
  {result : Except AttachmentError (List AttachmentRef)}

theorem unheld_spec {s : AttachmentSystem} {i : Nat} {call : SaveCall}
    (h : s.unheld sha256 i file = true) (hj : s.calls[j]? = some call) (hne : j ≠ i) :
    file ∉ call.held sha256 := by
  rw [unheld, all_eq_true] at h
  have hmem := h (call, j) (mk_mem_zipIdx_iff_getElem?.mpr hj)
  simpa [hne] using hmem

/-! ## The invariant -/

def InjectiveOn (sha256 : Bytes → Digest) (contents : Bytes → Prop) : Prop :=
  ∀ a b, contents a → contents b → sha256 a = sha256 b → a = b

/-- An item of a call: an accepted image among the contents. -/
def Checked (sha256 : Bytes → Digest) (limits : AttachmentLimits) (contents : Bytes → Prop)
    (item : SaveItem) : Prop :=
  contents item.data ∧ ∃ name, validateBytes sha256 limits item.data name = .ok item.image

def Phase.busy : Phase → Bool
  | .moving | .cleaning => true
  | .probing | .reading | .opening | .rolling .. | .returned _ => false

/-- One call: its items are checked, what it has saved and what is to come
are its inputs, and it made nothing it has not saved. -/
structure CallSound (sha256 : Bytes → Digest) (limits : AttachmentLimits)
    (contents : Bytes → Prop) (call : SaveCall) : Prop where
  saved : ∀ item ∈ call.saved, Checked sha256 limits contents item
  todo : ∀ item ∈ call.todo, Checked sha256 limits contents item
  inputs : call.phase.holds = true →
    call.saved.map (·.data) ++ call.todo.map (·.data) = call.inputs
  created : ∀ file ∈ call.created, file ∈ call.saved.map (SaveItem.file sha256)
  /-- `save` has one image. -/
  alone : call.batch = false → call.saved.length + call.todo.length ≤ 1
  answered : ∀ refs, call.phase = .returned (.ok refs) →
    refs = call.saved.map (·.image) ∧ call.todo = []
  /-- A temporary is that of an image to come. -/
  busy : call.phase.busy = true → call.todo ≠ []

structure Sound (sha256 : Bytes → Digest) (limits : AttachmentLimits) (contents : Bytes → Prop)
    (files : List (List Char × Bytes)) (s : AttachmentSystem) : Prop where
  calls : ∀ (i : Nat) (call : SaveCall), s.calls[i]? = some call →
    CallSound sha256 limits contents call
  contents : ∀ file data, s.files.lookup file = some data → contents data
  /-- What a call holds is there, with its bytes. -/
  kept : ∀ (i : Nat) (call : SaveCall), s.calls[i]? = some call → call.phase.holds = true →
    ∀ item ∈ call.saved, s.files.lookup (item.file sha256) = some item.data
  /-- What is there was there before, or made by a call that has not failed. -/
  accounted : ∀ file, s.files.lookup file ≠ none →
    files.lookup file ≠ none ∨ ∃ (i : Nat) (call : SaveCall), s.calls[i]? = some call ∧ file ∈ call.made
  temporaries : ∀ i ∈ s.temporaries, ∃ call, s.calls[i]? = some call ∧ call.phase.busy = true
  nodup : s.temporaries.Nodup

variable {contents : Bytes → Prop} {files : List (List Char × Bytes)} {s : AttachmentSystem}
  {call : SaveCall} {i : Nat}

theorem start_sound (hfiles : ∀ file data, files.lookup file = some data → contents data) :
    Sound sha256 limits contents files (.start files) where
  calls := fun _ _ h => (by cases h)
  contents := hfiles
  kept := nofun
  accounted := fun _ h => .inl h
  temporaries := nofun
  nodup := nodup_nil

/-! ## Calls -/

theorem Checked.data_eq {a b : SaveItem} (ha : Checked sha256 limits contents a)
    (hb : Checked sha256 limits contents b) (hinj : InjectiveOn sha256 contents)
    (h : a.file sha256 = b.file sha256) : a.data = b.data :=
  hinj _ _ ha.1 hb.1 (fileName_injective h)

theorem validateInput_checked (hinput : contents input.data)
    (h : validateInput sha256 limits input = .ok item) :
    item.data = input.data ∧ Checked sha256 limits contents item := by
  obtain ⟨_, himage, h⟩ := bind_eq_ok.mp h
  cases h
  exact ⟨rfl, hinput, _, himage⟩

theorem validateBatch_checked : ∀ {inputs : List AttachmentInput} {total : Nat}
    {items : List SaveItem}, (∀ input ∈ inputs, contents input.data) →
    validateBatch sha256 limits total inputs = .ok items →
    items.map (·.data) = inputs.map (·.data) ∧
      ∀ item ∈ items, Checked sha256 limits contents item
  | [], _, items, _, h => by
    cases h
    exact ⟨rfl, nofun⟩
  | input :: rest, total, items, hinputs, h => by
    obtain ⟨_, hitem, h⟩ := bind_eq_ok.mp h
    replace h := after_check h
    obtain ⟨_, hitems, h⟩ := bind_eq_ok.mp h
    cases h
    obtain ⟨hdata, hchecked⟩ := validateInput_checked (hinputs input mem_cons_self) hitem
    obtain ⟨hrest, hall⟩ := validateBatch_checked
      (fun other hother => hinputs other (mem_cons_of_mem _ hother)) hitems
    refine ⟨by rw [map_cons, map_cons, hdata, hrest], ?_⟩
    intro other hother
    rcases mem_cons.mp hother with rfl | hother
    · exact hchecked
    · exact hall other hother

theorem beginCall_saved (batch : Bool) (inputs : List AttachmentInput)
    (items : Except AttachmentError (List SaveItem)) :
    (beginCall batch inputs items).saved = [] := by
  cases items <;> rfl

/-- A call begins with what its probes gave. -/
theorem beginCall_sound {batch : Bool} {result : Except AttachmentError (List SaveItem)}
    (h : ∀ items, result = .ok items → items.map (·.data) = inputs.map (·.data) ∧
      (∀ item ∈ items, Checked sha256 limits contents item) ∧
      (batch = false → items.length ≤ 1)) :
    CallSound sha256 limits contents (beginCall batch inputs result) := by
  cases result with
  | error e =>
    exact { saved := nofun, todo := nofun, inputs := nofun, created := nofun
            alone := fun _ => Nat.zero_le _, answered := nofun, busy := nofun }
  | ok items =>
    obtain ⟨hdata, hchecked, halone⟩ := h items rfl
    exact { saved := nofun, todo := hchecked, inputs := fun _ => hdata, created := nofun
            alone := fun hb => by simpa [beginCall] using halone hb, answered := nofun
            busy := nofun }

/-- A save begins. -/
theorem saveCall_sound (hinput : contents input.data) :
    CallSound sha256 limits contents (saveCall sha256 limits input) := by
  refine beginCall_sound fun items hitems => ?_
  cases hitem : validateInput sha256 limits input with
  | error e =>
    rw [hitem] at hitems
    cases hitems
  | ok item =>
    rw [hitem] at hitems
    cases hitems
    obtain ⟨hdata, hchecked⟩ := validateInput_checked hinput hitem
    refine ⟨by rw [map_singleton, map_singleton, hdata], ?_, fun _ => le_refl 1⟩
    intro other hother
    rw [mem_singleton.mp hother]
    exact hchecked

theorem saveBatchCall_sound (hinputs : ∀ input ∈ inputs, contents input.data) :
    CallSound sha256 limits contents (saveBatchCall sha256 limits inputs) := by
  refine beginCall_sound fun items hitems => ?_
  split at hitems
  · cases hitems
  · obtain ⟨hdata, hchecked⟩ := validateBatch_checked hinputs hitems
    exact ⟨hdata, hchecked, nofun⟩

section

variable (h : CallSound sha256 limits contents call)

include h

/-- A call fails. -/
theorem CallSound.fail (e : AttachmentError) :
    CallSound sha256 limits contents (call.fail e) where
  saved := h.saved
  todo := h.todo
  inputs := by
    unfold SaveCall.fail
    split <;> nofun
  created := h.created
  alone := h.alone
  answered := by
    unfold SaveCall.fail
    split <;> nofun
  busy := by
    unfold SaveCall.fail
    split <;> nofun

theorem CallSound.made_fail (htodo : call.todo = item :: rest) (e : AttachmentError) :
    (call.fail e).made = call.created := by
  unfold SaveCall.fail
  cases hbatch : call.batch with
  | true => rfl
  | false =>
    have hlength := h.alone hbatch
    rw [htodo, length_cons] at hlength
    have hsaved : call.saved = [] := eq_nil_of_length_eq_zero (by omega)
    have hcreated : call.created = [] := by
      apply eq_nil_iff_forall_not_mem.mpr
      intro file hfile
      have hmem := h.created file hfile
      rw [hsaved] at hmem
      cases hmem
    exact hcreated.symm

/-- A call keeps an image as saved. -/
theorem CallSound.keep (hholds : call.phase.holds = true) (htodo : call.todo = item :: rest)
    (made : Bool) :
    CallSound sha256 limits contents (call.keep sha256 item rest made) where
  saved := by
    intro other hother
    rcases mem_append.mp hother with hother | hother
    · exact h.saved other hother
    · rw [mem_singleton.mp hother]
      exact h.todo item (htodo ▸ mem_cons_self)
  todo := fun other hother => h.todo other (htodo ▸ mem_cons_of_mem _ hother)
  inputs := by
    intro _
    have hinputs := h.inputs hholds
    rw [htodo, map_cons] at hinputs
    rw [SaveCall.keep, map_append, map_singleton, append_assoc]
    exact hinputs
  created := by
    intro file hfile
    rw [SaveCall.keep, map_append, mem_append]
    cases made with
    | false => exact .inl (h.created file hfile)
    | true =>
      rcases mem_append.mp hfile with hfile | hfile
      · exact .inl (h.created file hfile)
      · exact .inr hfile
  alone := by
    intro hbatch
    have hlength := h.alone hbatch
    rw [htodo, length_cons] at hlength
    have hsaved : (call.saved ++ [item]).length + rest.length ≤ 1 := by
      rw [length_append, length_singleton]
      omega
    exact hsaved
  answered := nofun
  busy := nofun

/-- A call goes to its next phase. -/
theorem CallSound.go {phase : Phase}
    (hholds : phase.holds = true → call.phase.holds = true)
    (hanswer : ∀ refs, phase ≠ .returned (.ok refs))
    (hbusy : phase.busy = true → call.todo ≠ []) :
    CallSound sha256 limits contents { call with phase } :=
  { h with
    inputs := fun hp => h.inputs (hholds hp)
    answered := fun refs hr => absurd hr (hanswer refs)
    busy := hbusy }

end

/-! ## One operation -/

theorem setCall_getElem? {s : AttachmentSystem} {i : Nat} {call other : SaveCall}
    (h : (s.setCall i call).calls[j]? = some other) :
    (i = j ∧ other = call) ∨ (j ≠ i ∧ s.calls[j]? = some other) := by
  rw [setCall, getElem?_set] at h
  by_cases heq : i = j
  · rw [if_pos heq] at h
    split at h
    · cases h
      exact .inl ⟨heq, rfl⟩
    · cases h
  · rw [if_neg heq] at h
    exact .inr ⟨Ne.symm heq, h⟩

section

variable (h : Sound sha256 limits contents files s)

include h

section

variable (hi : s.calls[i]? = some call)

include hi

/-- A call does something to the files that no other call looks at. -/
theorem Sound.operation {files' : List (List Char × Bytes)} {temporaries' : List Nat}
    (hcall : CallSound sha256 limits contents call')
    (hcontents : ∀ file data, files'.lookup file = some data → contents data)
    (hothers : ∀ (j : Nat) (other : SaveCall), s.calls[j]? = some other → j ≠ i →
      other.phase.holds = true → ∀ item ∈ other.saved,
        files'.lookup (item.file sha256) = some item.data)
    (hown : call'.phase.holds = true → ∀ item ∈ call'.saved,
      files'.lookup (item.file sha256) = some item.data)
    (hmade : ∀ file, files'.lookup file ≠ none →
      file ∈ call'.made ∨ (s.files.lookup file ≠ none ∧ file ∉ call.made))
    (htemporaries : ∀ j ∈ temporaries', (j ∈ s.temporaries ∧ j ≠ i) ∨
      (j = i ∧ call'.phase.busy = true)) (hnodup : temporaries'.Nodup) :
    Sound sha256 limits contents files
      ({ s with files := files', temporaries := temporaries' }.setCall i call') := by
  have hset : ({ s with files := files', temporaries := temporaries' }.setCall i call').calls[i]?
      = some call' :=
    getElem?_set_self (List.getElem?_eq_some_iff.mp hi).1
  have hkeep : ∀ {j : Nat} {other : SaveCall}, s.calls[j]? = some other → j ≠ i →
      ({ s with files := files', temporaries := temporaries' }.setCall i call').calls[j]?
        = some other := by
    intro j other hj hne
    rw [← hj]
    exact getElem?_set_ne hne.symm
  constructor
  case calls =>
    intro j other hj
    rcases setCall_getElem? hj with ⟨_, rfl⟩ | ⟨_, hj⟩
    · exact hcall
    · exact h.calls j other hj
  case contents => exact hcontents
  case kept =>
    intro j other hj
    rcases setCall_getElem? hj with ⟨_, rfl⟩ | ⟨hne, hj⟩
    · exact hown
    · exact hothers j other hj hne
  case accounted =>
    intro file hfile
    rcases hmade file hfile with hmade | ⟨hthere, hnot⟩
    · exact .inr ⟨i, call', hset, hmade⟩
    · rcases h.accounted file hthere with hfirst | ⟨j, other, hj, hother⟩
      · exact .inl hfirst
      · have hne : j ≠ i := by
          rintro rfl
          rw [hi] at hj
          cases hj
          exact hnot hother
        exact .inr ⟨j, other, hkeep hj hne, hother⟩
  case temporaries =>
    intro j hj
    rcases htemporaries j hj with ⟨hj, hne⟩ | ⟨rfl, hbusy⟩
    · obtain ⟨other, hother, hbusy⟩ := h.temporaries j hj
      exact ⟨other, hkeep hother hne, hbusy⟩
    · exact ⟨call', hset, hbusy⟩
  case nodup => exact hnodup

/-- A call goes on and leaves the files. -/
theorem Sound.goOn (hcall : CallSound sha256 limits contents call')
    (hown : call'.phase.holds = true → ∀ item ∈ call'.saved,
      s.files.lookup (item.file sha256) = some item.data)
    (hmade : ∀ file ∈ call.made, file ∈ call'.made)
    (hbusy : call.phase.busy = true → call'.phase.busy = true) :
    Sound sha256 limits contents files (s.setCall i call') := by
  refine h.operation hi hcall h.contents (fun j other hj _ => h.kept j other hj) hown ?_ ?_ h.nodup
  · intro file hfile
    by_cases hmem : file ∈ call.made
    · exact .inl (hmade file hmem)
    · exact .inr ⟨hfile, hmem⟩
  · intro j hj
    by_cases hne : j = i
    · subst hne
      obtain ⟨_, hother, hb⟩ := h.temporaries j hj
      rw [hi] at hother
      cases hother
      exact .inr ⟨rfl, hbusy hb⟩
    · exact .inl ⟨hj, hne⟩

theorem Sound.not_mem_temporaries (hbusy : call.phase.busy = false) : i ∉ s.temporaries := by
  intro hmem
  obtain ⟨_, hother, hb⟩ := h.temporaries i hmem
  rw [hi] at hother
  cases hother
  rw [hbusy] at hb
  cases hb

/-- A call fails and leaves the files. -/
theorem Sound.fail (htodo : call.todo = item :: rest) (hmade : call.made = call.created)
    (hbusy : call.phase.busy = false) (e : AttachmentError) :
    Sound sha256 limits contents files (s.setCall i (call.fail e)) := by
  have hcall := h.calls i call hi
  refine h.goOn hi (hcall.fail e) ?_ ?_ ?_
  · unfold SaveCall.fail
    split <;> nofun
  · intro file hfile
    rw [hcall.made_fail htodo e, ← hmade]
    exact hfile
  · rw [hbusy]
    nofun

end

end

theorem verifyExisting_data (hinj : InjectiveOn sha256 contents)
    (hitem : Checked sha256 limits contents item) (hexisting : contents existing)
    (h : verifyExisting sha256 limits item existing = .ok ()) : existing = item.data := by
  obtain ⟨_, hname⟩ := hitem.2
  obtain ⟨verified, hverified, h⟩ := bind_eq_ok.mp h
  have hid : verified.attachmentId = item.image.attachmentId := by
    by_contra hne
    exact failIf_eq_ok.mp h hne
  rw [(validateBytes_fields hverified).1, (validateBytes_fields hname).1] at hid
  exact hinj _ _ hexisting hitem.1 (fromDigest_injective hid)

section

variable (h : Sound sha256 limits contents files s)

include h

/-- A call finds the file of its image and verifies it. -/
theorem Sound.keepExisting (hinj : InjectiveOn sha256 contents) (hi : s.calls[i]? = some call)
    (hphase : call.phase = .reading) (htodo : call.todo = item :: rest)
    (hlookup : s.files.lookup (item.file sha256) = some existing)
    (hverified : verifyExisting sha256 limits item existing = .ok ()) :
    Sound sha256 limits contents files (s.setCall i (call.keep sha256 item rest false)) := by
  have hcall := h.calls i call hi
  have hholds : call.phase.holds = true := by rw [hphase]; rfl
  refine h.goOn hi (hcall.keep hholds htodo false) ?_ ?_ ?_
  · intro _ other hother
    rcases mem_append.mp hother with hother | hother
    · exact h.kept i call hi hholds other hother
    · have hsame := verifyExisting_data hinj (hcall.todo item (htodo ▸ mem_cons_self))
        (h.contents _ _ hlookup) hverified
      rw [mem_singleton.mp hother, hlookup, hsame]
  · intro file hfile
    rw [SaveCall.made, hphase] at hfile
    exact hfile
  · rw [hphase]
    nofun

/-- A call renames its temporary to the file of its image. -/
theorem Sound.rename (hinj : InjectiveOn sha256 contents)
    (hi : s.calls[i]? = some call) (hphase : call.phase = .moving)
    (htodo : call.todo = item :: rest) :
    Sound sha256 limits contents files
      ({ s with
        files := Keyed.set (item.file sha256) item.data s.files
        temporaries := s.temporaries.erase i }.setCall i (call.keep sha256 item rest true)) := by
  have hcall := h.calls i call hi
  have hholds : call.phase.holds = true := by rw [hphase]; rfl
  have hitem : Checked sha256 limits contents item := hcall.todo item (htodo ▸ mem_cons_self)
  -- Another item of this file has the bytes that are written.
  have hwrite : ∀ other, Checked sha256 limits contents other →
      s.files.lookup (other.file sha256) = some other.data →
      (Keyed.set (item.file sha256) item.data s.files).lookup (other.file sha256)
        = some other.data := by
    intro other hother hlookup
    rw [Keyed.lookup_set]
    split
    · rename_i hfile
      rw [hother.data_eq hitem hinj hfile]
    · exact hlookup
  refine h.operation hi (hcall.keep hholds htodo true) ?_ ?_ ?_ ?_ ?_ (h.nodup.erase i)
  · intro file data hlookup
    rw [Keyed.lookup_set] at hlookup
    split at hlookup
    · cases hlookup
      exact hitem.1
    · exact h.contents file data hlookup
  · intro j other hj _ hother saved hsaved
    exact hwrite saved ((h.calls j other hj).saved saved hsaved)
      (h.kept j other hj hother saved hsaved)
  · intro _ other hother
    rcases mem_append.mp hother with hother | hother
    · exact hwrite other (hcall.saved other hother) (h.kept i call hi hholds other hother)
    · rw [mem_singleton.mp hother, Keyed.lookup_set, if_pos rfl]
  · intro file hfile
    by_cases hmem : file ∈ call.made
    · rw [SaveCall.made, hphase] at hmem
      exact .inl (mem_append_left _ hmem)
    · rw [Keyed.lookup_set] at hfile
      split at hfile
      · rename_i heq
        exact .inl (mem_append_right _ (heq ▸ mem_singleton_self _))
      · exact .inr ⟨hfile, hmem⟩
  · intro j hj
    exact .inl ⟨mem_of_mem_erase hj, ((h.nodup.mem_erase_iff).mp hj).1⟩

/-- A call opens a temporary. -/
theorem Sound.openTemporary (hi : s.calls[i]? = some call) (hphase : call.phase = .opening)
    (htodo : call.todo ≠ []) :
    Sound sha256 limits contents files
      ({ s with temporaries := i :: s.temporaries }.setCall i { call with phase := .moving }) := by
  have hcall := h.calls i call hi
  have hholds : call.phase.holds = true := by rw [hphase]; rfl
  have hfresh : i ∉ s.temporaries := h.not_mem_temporaries hi (by rw [hphase]; rfl)
  refine h.operation hi (hcall.go (fun _ => hholds) nofun fun _ => htodo) h.contents
    (fun j other hj _ => h.kept j other hj) (fun _ => h.kept i call hi hholds) ?_ ?_
    (nodup_cons.mpr ⟨hfresh, h.nodup⟩)
  · intro file hfile
    by_cases hmem : file ∈ call.made
    · rw [SaveCall.made, hphase] at hmem
      exact .inl hmem
    · exact .inr ⟨hfile, hmem⟩
  · intro j hj
    rcases mem_cons.mp hj with rfl | hj
    · exact .inr ⟨rfl, rfl⟩
    · exact .inl ⟨hj, fun heq => hfresh (heq ▸ hj)⟩

/-- A call removes its temporary. -/
theorem Sound.clean (hi : s.calls[i]? = some call)
    (hphase : call.phase = .cleaning) (htodo : call.todo = item :: rest) (e : AttachmentError) :
    Sound sha256 limits contents files
      ({ s with temporaries := s.temporaries.erase i }.setCall i (call.fail e)) := by
  have hcall := h.calls i call hi
  refine h.operation hi (hcall.fail e) h.contents (fun j other hj _ => h.kept j other hj) ?_ ?_ ?_
    (h.nodup.erase i)
  · unfold SaveCall.fail
    split <;> nofun
  · intro file hfile
    rw [hcall.made_fail htodo e]
    by_cases hmem : file ∈ call.made
    · rw [SaveCall.made, hphase] at hmem
      exact .inl hmem
    · exact .inr ⟨hfile, hmem⟩
  · intro j hj
    exact .inl ⟨mem_of_mem_erase hj, ((h.nodup.mem_erase_iff).mp hj).1⟩

/-- A rollback removes a file nobody else holds. -/
theorem Sound.roll (hi : s.calls[i]? = some call)
    {rest : List (List Char)} {e : AttachmentError}
    (hphase : call.phase = .rolling (file :: rest) e) (hunheld : s.unheld sha256 i file = true) :
    Sound sha256 limits contents files
      ({ s with files := Keyed.without file s.files }.setCall i
        { call with phase := .rolling rest e }) := by
  have hfresh : i ∉ s.temporaries := h.not_mem_temporaries hi (by rw [hphase]; rfl)
  refine h.operation hi ((h.calls i call hi).go nofun nofun nofun) ?_ ?_ nofun ?_ ?_ h.nodup
  · intro other data hlookup
    rw [Keyed.lookup_without] at hlookup
    split at hlookup
    · cases hlookup
    · exact h.contents other data hlookup
  · intro j other hj hne hholds item hitem
    have hnot : item.file sha256 ≠ file := by
      rintro rfl
      have hheld := unheld_spec hunheld hj hne
      rw [SaveCall.held, if_pos hholds] at hheld
      exact hheld (mem_map_of_mem hitem)
    rw [Keyed.lookup_without, if_neg hnot]
    exact h.kept j other hj hholds item hitem
  · intro other hother
    rw [Keyed.lookup_without] at hother
    split at hother
    · exact absurd rfl hother
    · rename_i hne
      by_cases hmem : other ∈ rest
      · exact .inl hmem
      · refine .inr ⟨hother, ?_⟩
        rw [SaveCall.made, hphase]
        exact fun hcons => (mem_cons.mp hcons).elim hne hmem
  · intro j hj
    exact .inl ⟨hj, fun heq => hfresh (heq ▸ hj)⟩

/-! ## Runs -/

/-- A call is added. -/
theorem Sound.begin (hcall : CallSound sha256 limits contents call) (hsaved : call.saved = []) :
    Sound sha256 limits contents files { s with calls := s.calls ++ [call] } where
  calls := by
    intro j other hj
    rcases Keyed.getElem?_append_one.mp hj with hj | ⟨_, rfl⟩
    · exact h.calls j other hj
    · exact hcall
  contents := h.contents
  kept := by
    intro j other hj hholds item hitem
    rcases Keyed.getElem?_append_one.mp hj with hj | ⟨_, rfl⟩
    · exact h.kept j other hj hholds item hitem
    · rw [hsaved] at hitem
      cases hitem
  accounted := by
    intro file hfile
    rcases h.accounted file hfile with hfirst | ⟨j, other, hj, hmade⟩
    · exact .inl hfirst
    · exact .inr ⟨j, other, Keyed.getElem?_append_one.mpr (.inl hj), hmade⟩
  temporaries := by
    intro j hj
    obtain ⟨other, hother, hbusy⟩ := h.temporaries j hj
    exact ⟨other, Keyed.getElem?_append_one.mpr (.inl hother), hbusy⟩
  nodup := h.nodup

/-- One operation of a call. -/
theorem Sound.advance (hinj : InjectiveOn sha256 contents) (hi : s.calls[i]? = some call)
    {succeeds : Bool}
    (hcareful : Careful sha256 s (.advance i succeeds)) :
    Sound sha256 limits contents files (s.advance sha256 limits i call succeeds) := by
  have hcall := h.calls i call hi
  have hkept := h.kept i call hi
  obtain ⟨batch, inputs, todo, saved, created, phase⟩ := call
  cases phase with
  | probing =>
    cases todo with
    | nil =>
      have hreturn : CallSound sha256 limits contents
          { batch, inputs, todo := [], saved, created
            phase := .returned (.ok (saved.map (·.image))) } :=
        { hcall with
          inputs := fun _ => hcall.inputs rfl
          answered := fun refs hr => by cases hr; exact ⟨rfl, rfl⟩ }
      exact h.goOn hi hreturn (fun _ => hkept rfl) (fun _ hfile => hfile) nofun
    | cons item rest =>
      dsimp only [advance]
      split
      · exact h.fail hi rfl rfl rfl _
      · split
        all_goals
          exact h.goOn hi (hcall.go (fun _ => rfl) nofun nofun) (fun _ => hkept rfl)
            (fun _ hfile => hfile) nofun
  | reading =>
    cases todo with
    | nil => exact h
    | cons item rest =>
      dsimp only [advance]
      split
      · rename_i hlookup
        split
        · rename_i hverified
          exact h.keepExisting hinj hi rfl rfl hlookup hverified
        · exact h.fail hi rfl rfl rfl _
      · exact h.fail hi rfl rfl rfl _
  | opening =>
    cases todo with
    | nil => exact h
    | cons item rest =>
      dsimp only [advance]
      split
      · exact h.fail hi rfl rfl rfl _
      · exact h.openTemporary hi rfl nofun
  | moving =>
    cases todo with
    | nil => exact h
    | cons item rest =>
      dsimp only [advance]
      split
      · exact h.goOn hi (hcall.go nofun nofun fun _ => hcall.busy rfl) nofun
          (fun _ hfile => hfile) fun _ => rfl
      · exact h.rename hinj hi rfl rfl
  | cleaning =>
    cases todo with
    | nil => exact absurd rfl (hcall.busy rfl)
    | cons item rest =>
      rw [Careful, careful, hi] at hcareful
      dsimp only at hcareful
      subst hcareful
      exact h.clean hi rfl rfl _
  | rolling rest e =>
    cases rest with
    | nil => exact h.goOn hi (hcall.go nofun nofun nofun) nofun nofun nofun
    | cons file rest =>
      rw [Careful, careful, hi] at hcareful
      dsimp only at hcareful
      rw [and_eq_true] at hcareful
      obtain ⟨rfl, hunheld⟩ := hcareful
      exact h.roll hi rfl hunheld
  | returned result => exact h

end

def AttachmentStep.data : AttachmentStep → List Bytes
  | .save input => [input.data]
  | .saveBatch inputs => inputs.map (·.data)
  | .advance .. => []

/-- One step of the store. -/
theorem Sound.step (h : Sound sha256 limits contents files s)
    (hinj : InjectiveOn sha256 contents) {step : AttachmentStep}
    (hdata : ∀ data ∈ step.data, contents data) (hcareful : Careful sha256 s step) :
    Sound sha256 limits contents files (s.step sha256 limits step) := by
  cases step with
  | save input =>
    exact h.begin (saveCall_sound (hdata _ mem_cons_self)) (beginCall_saved ..)
  | saveBatch inputs =>
    exact h.begin (saveBatchCall_sound fun input hinput =>
      hdata _ (mem_map_of_mem hinput)) (beginCall_saved ..)
  | advance i succeeds =>
    rw [AttachmentSystem.step]
    cases hi : s.calls[i]? with
    | none => exact h
    | some call => exact h.advance hinj hi hcareful

/-! ## Readable references -/

/-- The reference is accepted after it is written, and read with these
bytes. -/
structure Readable (sha256 : Bytes → Digest) (limits : AttachmentLimits) (s : AttachmentSystem)
    (data : Bytes) (reference : AttachmentRef) : Prop where
  accepted : AttachmentRef.fromValue reference.toValue = .ok reference
  read : s.readRef sha256 limits reference = .ok data
  bounded : ∀ maxBytes, reference.bytes ≤ maxBytes →
    s.readRefBounded sha256 limits reference maxBytes = .ok (reference, data)

/-- A checked image whose file is there is readable. -/
theorem Checked.readable (h : Checked sha256 limits contents item)
    (hlookup : s.files.lookup (item.file sha256) = some item.data) :
    Readable sha256 limits s item.data item.image := by
  obtain ⟨name, hname⟩ := h.2
  obtain ⟨hid, hbytes, _⟩ := validateBytes_fields hname
  have hfile : digestHex item.image.attachmentId = .ok (item.file sha256) := by
    rw [hid]
    exact digestHex_fromDigest _
  have hagain : validateBytes sha256 limits item.data none
      = .ok { item.image with name := sanitizeName none } := validateBytes_name hname none
  have hmetadata : checkMetadata { item.image with name := sanitizeName none } item.image
      = .ok () :=
    failIf_eq_ok.mpr (by simp)
  have hsame : failIf (item.image.attachmentId ≠ item.image.attachmentId)
      AttachmentError.digestMismatch = .ok () := failIf_eq_ok.mpr (by simp)
  constructor
  case accepted => exact fromValue_of_validateBytes hname
  case read =>
    have hread : s.read sha256 limits item.image.attachmentId
        = .ok ({ item.image with name := sanitizeName none }, item.data) := by
      rw [AttachmentSystem.read, hfile, ok_bind, hlookup]
      dsimp only
      rw [hagain, ok_bind, hsame, ok_bind]
    rw [readRef, hread, ok_bind]
    dsimp only
    rw [hmetadata, ok_bind]
  case bounded =>
    intro maxBytes hmax
    have hnamed : failIf (maxBytes < item.image.bytes) AttachmentError.byteLimit = .ok () :=
      failIf_eq_ok.mpr (Nat.not_lt.mpr hmax)
    have hthere : failIf (maxBytes < item.data.length) AttachmentError.byteLimit = .ok () :=
      failIf_eq_ok.mpr (Nat.not_lt.mpr (hbytes ▸ hmax))
    rw [readRefBounded, hnamed, ok_bind, hfile, ok_bind, hlookup]
    dsimp only
    rw [hthere, ok_bind, hagain, ok_bind, hsame, ok_bind, hmetadata, ok_bind]

/-- What a call has returned is readable. -/
theorem Sound.readable (h : Sound sha256 limits contents files s)
    (hi : s.calls[i]? = some call) {refs : List AttachmentRef}
    (hphase : call.phase = .returned (.ok refs)) :
    List.Forall₂ (Readable sha256 limits s) call.inputs refs := by
  have hcall := h.calls i call hi
  have hholds : call.phase.holds = true := by rw [hphase]; rfl
  obtain ⟨hrefs, htodo⟩ := hcall.answered refs hphase
  have hinputs := hcall.inputs hholds
  rw [htodo, map_nil, append_nil] at hinputs
  rw [hrefs, ← hinputs, forall₂_map_left_iff, forall₂_map_right_iff, forall₂_same]
  intro item hitem
  exact (hcall.saved item hitem).readable (h.kept i call hi hholds item hitem)

/-- The store holds nothing of a call that failed: a file was there first, is
that of a call under way, or is that of a reference a call has returned; a
temporary is that of a call under way. -/
structure Accounted (files : List (List Char × Bytes)) (s : AttachmentSystem) : Prop where
  files : ∀ file, s.files.lookup file ≠ none →
    files.lookup file ≠ none ∨
    (∃ call ∈ s.calls, (∀ result, call.phase ≠ .returned result) ∧ file ∈ call.made) ∨
    ∃ call ∈ s.calls, ∃ refs, call.phase = .returned (.ok refs) ∧
      ∃ reference ∈ refs, digestHex reference.attachmentId = .ok file
  temporaries : ∀ i ∈ s.temporaries, ∃ call, s.calls[i]? = some call ∧
    ∀ result, call.phase ≠ .returned result

/-- Every file belongs to a call or was there first. -/
theorem Sound.allAccounted (h : Sound sha256 limits contents files s) : Accounted files s where
  files := by
    intro file hfile
    rcases h.accounted file hfile with hfirst | ⟨j, call, hj, hmade⟩
    · exact .inl hfirst
    · have hmem : call ∈ s.calls := mem_of_getElem? hj
      have hcall := h.calls j call hj
      cases hphase : call.phase with
      | returned result =>
        cases result with
        | error e =>
          rw [SaveCall.made, hphase] at hmade
          cases hmade
        | ok refs =>
          rw [SaveCall.made, hphase] at hmade
          obtain ⟨item, hitem, rfl⟩ := mem_map.mp (hcall.created file hmade)
          obtain ⟨_, hname⟩ := (hcall.saved item hitem).2
          refine .inr (.inr ⟨call, hmem, refs, hphase, item.image, ?_, ?_⟩)
          · rw [(hcall.answered refs hphase).1]
            exact mem_map_of_mem hitem
          · rw [(validateBytes_fields hname).1]
            exact digestHex_fromDigest _
      | probing | reading | opening | moving | cleaning | rolling =>
        exact .inr (.inl ⟨call, hmem, by rw [hphase]; nofun, hmade⟩)
  temporaries := by
    intro j hj
    obtain ⟨call, hcall, hbusy⟩ := h.temporaries j hj
    refine ⟨call, hcall, fun result hresult => ?_⟩
    rw [hresult] at hbusy
    cases hbusy

/-! ## A call that has returned stays as it is -/

theorem advance_getElem?_ne {s : AttachmentSystem} {i : Nat} (call : SaveCall) (succeeds : Bool)
    (hne : j ≠ i) : (s.advance sha256 limits i call succeeds).calls[j]? = s.calls[j]? := by
  have hset : ∀ (s' : AttachmentSystem) (call' : SaveCall), s'.calls = s.calls →
      (s'.setCall i call').calls[j]? = s.calls[j]? := by
    intro s' call' hcalls
    rw [setCall, getElem?_set_ne hne.symm, hcalls]
  unfold advance
  split <;> repeat' split
  all_goals first | rfl | exact hset _ _ rfl

/-- A call that has returned stays as it is. -/
theorem returned_step {step : AttachmentStep} (hi : s.calls[i]? = some call)
    (hphase : call.phase = .returned result) :
    (s.step sha256 limits step).calls[i]? = some call := by
  cases step with
  | save input | saveBatch inputs => exact Keyed.getElem?_append_one.mpr (.inl hi)
  | advance j succeeds =>
    rw [AttachmentSystem.step]
    cases hj : s.calls[j]? with
    | none => exact hi
    | some other =>
      by_cases hne : i = j
      · subst hne
        rw [hi] at hj
        cases hj
        simp only [advance, hphase]
        exact hi
      · exact (advance_getElem?_ne other succeeds hne).trans hi

theorem returned_run (steps : List AttachmentStep) (hi : s.calls[i]? = some call)
    (hphase : call.phase = .returned result) :
    (s.run sha256 limits steps).calls[i]? = some call := by
  induction steps generalizing s with
  | nil => exact hi
  | cons step rest ih => exact ih (returned_step hi hphase)

/-! ## The store -/

def Contents (files : List (List Char × Bytes)) (steps : List AttachmentStep) (data : Bytes) :
    Prop :=
  (∃ file, (file, data) ∈ files) ∨ ∃ step ∈ steps, data ∈ step.data

/-- The invariant over every careful run. -/
theorem run_sound (hinj : InjectiveOn sha256 contents)
    (hfiles : ∀ file data, files.lookup file = some data → contents data)
    {steps : List AttachmentStep} (hdata : ∀ step ∈ steps, ∀ data ∈ step.data, contents data)
    (hsteps : Meets (Careful sha256) (AttachmentSystem.step sha256 limits) (.start files) steps) :
    Sound sha256 limits contents files
      ((start files).run sha256 limits steps) := by
  have hrun := hsteps.and_of_forall hdata
  refine foldl_invariant_of_meets (Sound sha256 limits contents files) ?_ steps _ hrun
    (start_sound hfiles)
  intro s step hcond h
  exact h.step hinj hcond.1 hcond.2

/-- In a run whose rollbacks remove nothing another call holds, and whose
removals succeed, every reference a call has returned is accepted and
readable from then on with the bytes of its input, and nothing is left of a
call that failed. -/
theorem attachments_readable (sha256 : Bytes → Digest) (limits : AttachmentLimits)
    (files : List (List Char × Bytes)) (steps later : List AttachmentStep)
    (hinj : InjectiveOn sha256 (Contents files (steps ++ later)))
    (hsteps : Meets (Careful sha256) (AttachmentSystem.step sha256 limits) (.start files)
      (steps ++ later)) :
    (∀ (i : Nat) (call : SaveCall) (refs : List AttachmentRef),
      ((AttachmentSystem.start files).run sha256 limits steps).calls[i]? = some call →
      call.phase = .returned (.ok refs) →
      List.Forall₂
        (Readable sha256 limits
          ((AttachmentSystem.start files).run sha256 limits (steps ++ later)))
        call.inputs refs) ∧
    Accounted files ((AttachmentSystem.start files).run sha256 limits (steps ++ later)) := by
  have hsound : Sound sha256 limits (Contents files (steps ++ later)) files
      ((start files).run sha256 limits (steps ++ later)) :=
    run_sound hinj (fun file data hlookup => .inl ⟨file, Keyed.mem_of_lookup hlookup⟩)
      (fun step hstep data hdata => .inr ⟨step, hstep, hdata⟩) hsteps
  refine ⟨?_, hsound.allAccounted⟩
  intro i call refs hi hphase
  have hlater : ((start files).run sha256 limits (steps ++ later)).calls[i]?
      = some call := by
    rw [run, foldl_append]
    exact returned_run later hi hphase
  exact hsound.readable hlater hphase

/-! ## Runs on two images -/

def dot : Bytes := [0x47, 0x49, 0x46, 0x38, 0x39, 0x61, 0x01, 0x00, 0x01, 0x00]

def dash : Bytes := [0x47, 0x49, 0x46, 0x38, 0x39, 0x61, 0x02, 0x00, 0x01, 0x00]

def gifDigest (data : Bytes) : Digest :=
  if data = dot then
    ⟨[0xfb, 0x65, 0x67, 0xd4, 0x97, 0x60, 0x63, 0x14, 0xa9, 0x68, 0x51, 0x5e, 0xbf, 0x90, 0x63,
      0xdc, 0xee, 0x9f, 0xcf, 0xf7, 0x77, 0x89, 0x7c, 0x38, 0x4e, 0xd8, 0xe6, 0xa2, 0x6d, 0xbd,
      0x71, 0x90], rfl⟩
  else if data = dash then
    ⟨[0xeb, 0x8b, 0xd1, 0x3c, 0xc2, 0x60, 0x14, 0x36, 0xf4, 0x44, 0xd7, 0x36, 0x48, 0xb2, 0x6a,
      0xbb, 0xb4, 0x50, 0xed, 0x90, 0xb2, 0x66, 0x10, 0x8b, 0x7c, 0xa9, 0x67, 0x7d, 0xb7, 0x35,
      0xfd, 0xe6], rfl⟩
  else ⟨List.replicate 32 0, rfl⟩

def dotInput : AttachmentInput := { data := dot, name := none }

def dashInput : AttachmentInput := { data := dash, name := some "dash.gif" }

/-- A batch writes the first image, fails on the second and rolls back; the
next batch writes both, and a save finds the second. -/
def tidySteps : List AttachmentStep :=
  [.saveBatch [dotInput, dashInput], .advance 0 true, .advance 0 true, .advance 0 true,
    .advance 0 false, .advance 0 true, .advance 0 true,
    .saveBatch [dotInput, dashInput], .advance 1 true, .advance 1 true, .advance 1 true,
    .advance 1 true, .advance 1 true, .advance 1 true, .save dashInput, .advance 2 true,
    .advance 2 true, .advance 1 true, .advance 2 true]

theorem gifDigest_injectiveOn :
    InjectiveOn gifDigest (Contents [] (tidySteps ++ [.save dotInput, .advance 3 true])) := by
  have hcases : ∀ data, Contents [] (tidySteps ++ [.save dotInput, .advance 3 true]) data →
      data = dot ∨ data = dash := by
    rintro data (⟨file, hfile⟩ | ⟨step, hstep, hdata⟩)
    · cases hfile
    · have hall : ∀ step ∈ tidySteps ++ [.save dotInput, .advance 3 true],
          ∀ data ∈ step.data, data = dot ∨ data = dash := by decide +kernel
      exact hall step hstep data hdata
  intro a b ha hb h
  rcases hcases a ha with rfl | rfl <;> rcases hcases b hb with rfl | rfl
  · rfl
  · exact absurd h (by decide +kernel)
  · exact absurd h (by decide +kernel)
  · rfl

def dotRef : AttachmentRef :=
  { attachmentId := fromDigest (gifDigest dot), mediaType := .gif, bytes := 10, width := 1
    height := 1, name := none }

def dashRef : AttachmentRef :=
  { attachmentId := fromDigest (gifDigest dash), mediaType := .gif, bytes := 10, width := 2
    height := 1, name := some "dash.gif" }

/-- The second batch has returned both references and the save the second one. -/
theorem tidySteps_returned :
    let calls := ((AttachmentSystem.start []).run gifDigest .standard tidySteps).calls.map
      fun call => (call.inputs, call.phase)
    calls[1]? = some ([dot, dash], .returned (.ok [dotRef, dashRef]))
      ∧ calls[2]? = some ([dash], .returned (.ok [dashRef])) := by
  decide +kernel

theorem attachments_readable_tidySteps :
    let later := (AttachmentSystem.start []).run gifDigest .standard
      (tidySteps ++ [.save dotInput, .advance 3 true])
    List.Forall₂ (Readable gifDigest .standard later) [dot, dash] [dotRef, dashRef]
      ∧ List.Forall₂ (Readable gifDigest .standard later) [dash] [dashRef]
      ∧ Accounted [] later := by
  obtain ⟨hreadable, haccounted⟩ := attachments_readable gifDigest .standard [] tidySteps
    [.save dotInput, .advance 3 true] gifDigest_injectiveOn (by decide +kernel)
  have hat : ∀ (i : Nat) inputs refs,
      (((AttachmentSystem.start []).run gifDigest .standard tidySteps).calls.map
        fun call => (call.inputs, call.phase))[i]? = some (inputs, Phase.returned (.ok refs)) →
      List.Forall₂ (Readable gifDigest .standard
        ((AttachmentSystem.start []).run gifDigest .standard
          (tidySteps ++ [.save dotInput, .advance 3 true]))) inputs refs := by
    intro i inputs refs hi
    rw [getElem?_map, Option.map_eq_some_iff] at hi
    obtain ⟨call, hcall, heq⟩ := hi
    obtain ⟨rfl, hphase⟩ := Prod.mk.inj heq
    exact hreadable i call refs hcall hphase
  exact ⟨hat 1 _ _ tidySteps_returned.1, hat 2 _ _ tidySteps_returned.2, haccounted⟩

/-- A save finds the file a batch has made and returns; the batch fails on
its second image and removes it. -/
def lostSteps : List AttachmentStep :=
  [.saveBatch [dotInput, dashInput], .advance 0 true, .advance 0 true, .advance 0 true,
    .save dotInput, .advance 1 true, .advance 1 true, .advance 1 true,
    .advance 0 false, .advance 0 true, .advance 0 true]

/-- The reference the save has returned has lost its bytes. -/
theorem saved_then_removed :
    ∃ reference : AttachmentRef,
      ((AttachmentSystem.start []).run gifDigest .standard lostSteps).calls[1]?.map (·.phase)
        = some (.returned (.ok [reference])) ∧
      ((AttachmentSystem.start []).run gifDigest .standard lostSteps).readRef gifDigest .standard
        reference = .error (.storage "open attachment") :=
  ⟨dotRef, by decide +kernel, by decide +kernel⟩

end Tessivum.Attachments
