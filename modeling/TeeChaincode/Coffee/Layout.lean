import TeeChaincode.Model.Coffee
import TeeChaincode.Ta.Commands

/-!
# A layout of the chaincode

A placement of the chaincode's arrays and literals as the linker options
of its `Makefile` ask for: the stack first, 64 KiB of it, then the
literals, then the arrays, in a memory of 512 KiB. It shows that layouts
exist, and the concrete runs of this development use it.
-/

namespace TeeChaincode

namespace Coffee

open Common

/-- The literals, one every 16 bytes. -/
def rodata : Bytes :=
  [Lit.create, .add, .query, .exist, .ok, .empty, .notfound, .error].flatMap fun l => pad 16 l.text

/-- Where they stand. -/
def linkedLit : Lit → UInt32
  | .create => 65536
  | .add => 65552
  | .query => 65568
  | .exist => 65584
  | .ok => 65600
  | .empty => 65616
  | .notfound => 65632
  | .error => 65648

/-- Where the arrays stand. -/
def linkedAddr : Static → UInt32
  | .gFunction => 65664
  | .gArg1 => 65728
  | .gPerson => 65792
  | .gCurVal => 65856
  | .gTmp => 66112

/-- Linear memory after instantiation. -/
def linkedImage : Memory := (⟨524288, fun _ => 0⟩ : Memory).write 65536 rodata

/-- The arrays lie behind the literals, where memory is zero. -/
theorem linkedImage_static (v : Static) :
    linkedImage.read (linkedAddr v).toNat v.size = List.replicate v.size 0 := by
  have hlen : rodata.length = 128 := by decide +kernel
  have hdis : (linkedAddr v).toNat + v.size ≤ 65536 ∨
      65536 + rodata.length ≤ (linkedAddr v).toNat := by
    rw [hlen]
    cases v <;> decide
  rw [linkedImage, Memory.read_write_of_disjoint hdis]
  refine Memory.read_eq_iff.2 ⟨List.length_replicate, fun i hi => ?_⟩
  rw [List.getD_eq_getElem _ _ (by simpa using hi), List.getElem_replicate]

/-- **The layout.** -/
def linked : Layout where
  image := linkedImage
  addr := linkedAddr
  lit := linkedLit
  addr_ne_zero v := by cases v <;> decide
  addr_in v := by cases v <;> decide
  lit_in l := by cases l <;> decide
  static_disjoint v w h := by
    cases v <;> cases w <;> first | exact absurd rfl h | decide
  lit_disjoint l v := by cases l <;> cases v <;> decide
  image_static := linkedImage_static
  image_lit l := by cases l <;> decide +kernel

/-- A file system on which every file is there. -/
def linkedFiles : Bytes → Option Bytes := fun _ => some smallestWasm

/-- A loader that finds the chaincode in every file. -/
def linkedLoader : Loader Globals := fun _ => some (coffee linked)

end Coffee

end TeeChaincode
