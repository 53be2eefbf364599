import Mathlib.Tactic
import VVBright.Interrupts.State

/-!
# The assembly stubs

The code of `interrupts.s`.  Each stub pushes two words and jumps to a common tail that saves the
registers, calls `interrupt_handler` and restores them.  The C function finds its arguments above
its return address; `irqEntry_above_one` computes the first of them for an `irq` stub.  It is the
word the tail pushed for `GS`, since nothing is pushed between that word and the return address.
-/

namespace VVBright

open Cpu

/-! ## The code -/

/-- The macro `ISR_NOERR`. -/
def isrNoerr (n : ℕ) : List (Instr StubLabel) :=
  [.pushImm 0#32, .pushImm (BitVec.ofNat 32 n), .jmp .isrCommon]

/-- The macro `ISR_ERR`: the processor has pushed an error code already. -/
def isrErr (n : ℕ) : List (Instr StubLabel) :=
  [.pushImm (BitVec.ofNat 32 n), .jmp .isrCommon]

/-- The macro `IRQ`. -/
def irqStub (n : ℕ) : List (Instr StubLabel) :=
  [.pushImm 0#32, .pushImm (BitVec.ofNat 32 n), .jmp .irqCommon]

/-- The text shared by `isr_common` and `irq_common`. -/
def commonTail : List (Instr StubLabel) :=
  [.pusha, .pushSeg .ds, .pushSeg .es, .pushSeg .fs, .pushSeg .gs,
    .movAx 0x10#16, .movSegAx .ds, .movSegAx .es, .movSegAx .fs, .movSegAx .gs,
    .call .interruptHandler,
    .popSeg .gs, .popSeg .fs, .popSeg .es, .popSeg .ds, .popa,
    .addEsp 8#32, .iret]

def isrCommon : List (Instr StubLabel) := commonTail

def irqCommon : List (Instr StubLabel) := commonTail

/-- The exceptions whose stubs are made with `ISR_ERR`. -/
def isrErrNumbers : List ℕ := [8, 10, 11, 12, 13, 14, 17]

def stubCode : StubLabel → List (Instr StubLabel)
  | .isr n => if n.val ∈ isrErrNumbers then isrErr n else isrNoerr n
  | .irq n => irqStub n
  | .isrCommon => isrCommon
  | .irqCommon => irqCommon
  | .interruptHandler => []

def stubAssembly (link : KernelLink) : Assembly StubLabel := ⟨stubCode, link.address⟩

/-! ## From the stub to the C function -/

/-- The processor when the segment registers are saved. -/
def irqSaved (wide : Bool) (n : ℕ) (c : Cpu) : Cpu :=
  (((((c.push 0#32).push (BitVec.ofNat 32 n)).pusha.pushSeg wide .ds).pushSeg wide .es).pushSeg
    wide .fs).pushSeg wide .gs

/-- The processor with `AX` and the data segments set to the kernel's selector. -/
def loadSegments (c : Cpu) : Cpu :=
  let c := c.setReg .eax ((c.regs .eax).extractLsb' 16 16 ++ 0x10#16)
  let c := c.setSeg .ds ((c.regs .eax).setWidth 16)
  let c := c.setSeg .es ((c.regs .eax).setWidth 16)
  let c := c.setSeg .fs ((c.regs .eax).setWidth 16)
  c.setSeg .gs ((c.regs .eax).setWidth 16)

/-- The processor at the entry of `interrupt_handler`. -/
def irqEntry (wide : Bool) (link : KernelLink) (n : ℕ) (c : Cpu) : Cpu :=
  (loadSegments (irqSaved wide n c)).push (link.address .irqCommon 11)

/-- The stub `irq n` reaches `interrupt_handler`. -/
theorem runUntil_irq (wide : Bool) (link : KernelLink) (n : Fin 16) (c : Cpu) :
    Machine.runUntil wide (stubAssembly link) (· == .interruptHandler) 32 ⟨c, .irq n, 0⟩ =
      some ⟨irqEntry wide link n c, .interruptHandler, 0⟩ :=
  rfl

lemma above_loadSegments (c : Cpu) (k : ℕ) : (loadSegments c).above k = c.above k := by
  simp [loadSegments]

/-- The words above the return address are those of the saved state. -/
lemma irqEntry_above_succ (wide : Bool) (link : KernelLink) (n : ℕ) (c : Cpu) {k : ℕ}
    (hk : k + 1 < 2 ^ 30) :
    (irqEntry wide link n c).above (k + 1) = (irqSaved wide n c).above k := by
  rw [irqEntry, above_push_succ _ _ hk, above_loadSegments]

/-- The first argument the C function reads is the word pushed for `GS`. -/
theorem irqEntry_above_one (wide : Bool) (link : KernelLink) (n : ℕ) (c : Cpu) :
    (irqEntry wide link n c).above 1 = segWord wide (c.below 14) (c.segs .gs) := by
  rw [irqEntry_above_succ wide link n c (k := 0) (by norm_num), irqSaved, above_pushSeg_zero,
    below_pushSeg _ _ _ (by omega) (by norm_num), below_pushSeg _ _ _ (by omega) (by norm_num),
    below_pushSeg _ _ _ (by omega) (by norm_num), below_pusha _ (by omega) (by norm_num),
    below_push _ _ (by omega) (by norm_num), below_push _ _ (by omega) (by norm_num),
    segs_pushSeg, segs_pushSeg, segs_pushSeg, segs_pusha, segs_push, segs_push]

end VVBright
