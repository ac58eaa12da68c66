/-
Tessivum.Library.Mask — masks: what is left of a value when its secret part is
taken out, and operations that do not carry the secret part over.

A map is a mask for an operation when the masked result depends on the masked
operands only (`IsMask`). Two runs of the operation on operands that look the
same behind the mask then have results that do (`IsMask.congr`). Masks that
commute can be put over one another (`isMask_foldl`).
-/
import Mathlib

namespace Tessivum.Library.Mask

variable {α β : Type}

/-- `mask` takes out a part of a value of `dom`, and `op` lets nothing of it
reach what the mask leaves of its results. -/
structure IsMask (dom : Set α) (op : α → α → α) (mask : α → α) : Prop where
  stays : ∀ x ∈ dom, mask x ∈ dom
  closed : ∀ x ∈ dom, ∀ y ∈ dom, op x y ∈ dom
  idem : ∀ x ∈ dom, mask (mask x) = mask x
  through : ∀ x ∈ dom, ∀ y ∈ dom, mask (op x y) = mask (op (mask x) (mask y))

section

variable {dom : Set α} {op : α → α → α}

/-- Operands that look the same give results that look the same. -/
theorem IsMask.congr {mask : α → α} (h : IsMask dom op mask) {x x' y y' : α}
    (hx : x ∈ dom) (hx' : x' ∈ dom) (hy : y ∈ dom) (hy' : y' ∈ dom)
    (hxx : mask x = mask x') (hyy : mask y = mask y') : mask (op x y) = mask (op x' y') :=
  calc mask (op x y) = mask (op (mask x) (mask y)) := h.through x hx y hy
    _ = mask (op (mask x') (mask y')) := by rw [hxx, hyy]
    _ = mask (op x' y') := (h.through x' hx' y' hy').symm

theorem isMask_id (hclosed : ∀ x ∈ dom, ∀ y ∈ dom, op x y ∈ dom) : IsMask dom op id :=
  ⟨fun _ hx => hx, hclosed, fun _ _ => rfl, fun _ _ _ _ => rfl⟩

theorem IsMask.comp {outer inner : α → α} (ho : IsMask dom op outer) (hi : IsMask dom op inner)
    (hcomm : ∀ x ∈ dom, outer (inner x) = inner (outer x)) :
    IsMask dom op fun x => outer (inner x) where
  stays x hx := ho.stays _ (hi.stays x hx)
  closed := hi.closed
  idem x hx := by
    have hz := hi.stays x hx
    calc outer (inner (outer (inner x)))
        = outer (outer (inner (inner x))) := by rw [hcomm _ hz]
      _ = outer (inner x) := by rw [hi.idem x hx, ho.idem _ hz]
  through x hx y hy := by
    have hx' := hi.stays x hx
    have hy' := hi.stays y hy
    calc outer (inner (op x y))
        = outer (inner (op (inner x) (inner y))) := by rw [hi.through x hx y hy]
      _ = inner (outer (op (inner x) (inner y))) := hcomm _ (ho.closed _ hx' _ hy')
      _ = inner (outer (op (outer (inner x)) (outer (inner y)))) := by
        rw [ho.through _ hx' _ hy']
      _ = outer (inner (op (outer (inner x)) (outer (inner y)))) :=
          (hcomm _ (ho.closed _ (ho.stays _ hx') _ (ho.stays _ hy'))).symm

variable {mask : β → α → α}

/-- A mask that commutes with the masks of a list commutes with the mask of
the list. -/
theorem foldl_comm (hstays : ∀ b, ∀ x ∈ dom, mask b x ∈ dom)
    (hcomm : ∀ b c, ∀ x ∈ dom, mask b (mask c x) = mask c (mask b x)) (b : β) :
    ∀ (bs : List β), ∀ x ∈ dom,
      bs.foldl (fun x c => mask c x) (mask b x) = mask b (bs.foldl (fun x c => mask c x) x)
  | [], _, _ => rfl
  | c :: bs, x, hx => by
    rw [List.foldl_cons, List.foldl_cons, hcomm c b x hx]
    exact foldl_comm hstays hcomm b bs _ (hstays c x hx)

theorem isMask_foldl (hmask : ∀ b, IsMask dom op (mask b))
    (hclosed : ∀ x ∈ dom, ∀ y ∈ dom, op x y ∈ dom)
    (hcomm : ∀ b c, ∀ x ∈ dom, mask b (mask c x) = mask c (mask b x)) :
    ∀ bs : List β, IsMask dom op fun x => bs.foldl (fun x c => mask c x) x
  | [] => isMask_id hclosed
  | b :: bs =>
    (isMask_foldl hmask hclosed hcomm bs).comp (hmask b) fun x hx =>
      foldl_comm (fun c => (hmask c).stays) hcomm b bs x hx

end

end Tessivum.Library.Mask
