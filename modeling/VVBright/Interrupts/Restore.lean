import Mathlib.Tactic
import VVBright.Interrupts.Dispatch

/-!
# Leaving an interrupt

The stubs of `interrupts.s` give the interrupted program its context back.  The words between the
frame pushed by the processor and the return address of `interrupt_handler` are counted from the
top: the four segment registers, the eight words of `pusha`, the number and the error code.  Popping
undoes pushing as long as the C function leaves these words alone, and the two words of the stub are
skipped by `add esp, 8`.  That there are always two rests on `ISR_ERR` being used for exactly those
exceptions for which the processor pushes an error code (`mem_isrErrNumbers_iff`).
-/

namespace VVBright

open Cpu

/-! ## Saving and restoring the context -/

/-- The four pushes of the common tail. -/
def saveSegs (wide : Bool) (c : Cpu) : Cpu :=
  (((c.pushSeg wide .ds).pushSeg wide .es).pushSeg wide .fs).pushSeg wide .gs

/-- The four pops of the common tail. -/
def restoreSegs (c : Cpu) : Cpu := (((c.popSeg .gs).popSeg .fs).popSeg .es).popSeg .ds

/-- The place of a segment register among the words `saveSegs` leaves on the stack. -/
def segSlot : Seg → ℕ
  | .gs => 0
  | .fs => 1
  | .es => 2
  | .ds => 3

/-- The common tail up to the loads of the segment registers. -/
def saveContext (wide : Bool) (c : Cpu) : Cpu := saveSegs wide c.pusha

/-- The common tail after the call. -/
def restoreContext (c : Cpu) : Cpu := (restoreSegs c).popa.addEsp 8#32

lemma above_saveSegs (wide : Bool) (c : Cpu) {k : ℕ} (hk : k + 4 < 2 ^ 30) :
    (saveSegs wide c).above (k + 4) = c.above k := by
  rw [saveSegs, above_pushSeg_succ _ _ _ (by omega), above_pushSeg_succ _ _ _ (by omega),
    above_pushSeg_succ _ _ _ (by omega), above_pushSeg_succ _ _ _ (by omega)]

lemma setWidth_above_pushSeg (wide : Bool) (r : Seg) (c : Cpu) :
    ((c.pushSeg wide r).above 0).setWidth 16 = c.segs r := by
  rw [above_pushSeg_zero, setWidth_segWord]

/-- Each segment register is in its place. -/
lemma setWidth_above_saveSegs (wide : Bool) (c : Cpu) (r : Seg) :
    ((saveSegs wide c).above (segSlot r)).setWidth 16 = c.segs r := by
  rw [saveSegs]
  cases r with
  | gs => exact setWidth_above_pushSeg wide .gs _
  | fs =>
    rw [segSlot, above_pushSeg_succ _ _ _ (k := 0) (by norm_num)]
    exact setWidth_above_pushSeg wide .fs _
  | es =>
    rw [segSlot, above_pushSeg_succ _ _ _ (k := 1) (by norm_num),
      above_pushSeg_succ _ _ _ (k := 0) (by norm_num)]
    exact setWidth_above_pushSeg wide .es _
  | ds =>
    rw [segSlot, above_pushSeg_succ _ _ _ (k := 2) (by norm_num),
      above_pushSeg_succ _ _ _ (k := 1) (by norm_num),
      above_pushSeg_succ _ _ _ (k := 0) (by norm_num)]
    exact setWidth_above_pushSeg wide .ds _

lemma segs_restoreSegs (c : Cpu) (r : Seg) :
    (restoreSegs c).segs r = (c.above (segSlot r)).setWidth 16 := by
  cases r <;> simp [restoreSegs, segs_popSeg, above_popSeg, segSlot]

lemma above_restoreSegs (c : Cpu) (k : ℕ) : (restoreSegs c).above k = c.above (k + 4) := by
  simp only [restoreSegs, above_popSeg]

/-- The saved context has twelve words. -/
lemma esp_saveContext (wide : Bool) (c : Cpu) : (saveContext wide c).esp = c.esp - 48#32 := by
  simp only [saveContext, saveSegs, pushSeg, esp_push, esp_pusha]
  bv_omega

section

variable {wide : Bool} {c d : Cpu} {depth : ℕ} (hdepth : depth + 14 < 2 ^ 30)
  (hesp : d.esp = (saveContext wide c).esp)
  (habove : ∀ k < depth + 14, d.above k = (saveContext wide c).above k)

include habove

/-- The segment registers are restored. -/
lemma segs_restoreContext : (restoreContext d).segs = c.segs := by
  funext r
  have hslot : segSlot r < 4 := by cases r <;> decide
  calc (restoreContext d).segs r = (restoreSegs d).segs r := rfl
    _ = (d.above (segSlot r)).setWidth 16 := segs_restoreSegs d r
    _ = ((saveSegs wide c.pusha).above (segSlot r)).setWidth 16 := by
      rw [habove _ (by omega), saveContext]
    _ = c.segs r := setWidth_above_saveSegs wide c.pusha r

include hdepth

/-- The words of the saved context that are not part of it. -/
lemma above_restoreContext {k : ℕ} (hk : k < depth) :
    (restoreContext d).above k = c.above (k + 2) := by
  calc (restoreContext d).above k = (restoreSegs d).popa.above (k + 2) := above_addEsp 2 _ k
    _ = d.above (k + 2 + 8 + 4) := by rw [above_popa, above_restoreSegs]
    _ = (saveSegs wide c.pusha).above (k + 2 + 8 + 4) := by rw [habove _ (by omega), saveContext]
    _ = c.above (k + 2) := by rw [above_saveSegs _ _ (by omega), above_pusha _ (by omega)]

/-- The general registers are restored. -/
lemma regs_restoreContext {r : Reg} (hr : r ≠ .esp) : (restoreContext d).regs r = c.regs r := by
  have hslot := pushaSlot_lt r
  calc (restoreContext d).regs r = (restoreSegs d).popa.regs r := regs_addEsp hr _ _
    _ = d.above (pushaSlot r + 4) := by rw [regs_popa _ hr, above_restoreSegs]
    _ = (saveSegs wide c.pusha).above (pushaSlot r + 4) := by rw [habove _ (by omega), saveContext]
    _ = c.regs r := by rw [above_saveSegs _ _ (by omega), above_pusha_slot]

omit habove hdepth

include hesp

/-- The stack pointer is above the two words of the stub. -/
lemma esp_restoreContext : (restoreContext d).esp = c.esp + 8#32 := by
  rw [restoreContext, esp_addEsp, esp_popa, restoreSegs, esp_popSeg, esp_popSeg, esp_popSeg,
    esp_popSeg, hesp, esp_saveContext]
  bv_omega

end

/-! ## Running a stub -/

/-- The stubs `isr0` to `isr19` and `irq0` to `irq15`. -/
abbrev Stub := Fin 20 ⊕ Fin 16

def Stub.label : Stub → StubLabel := Sum.elim .isr .irq

/-- The number the stub pushes. -/
def Stub.number : Stub → BitVec 32 :=
  Sum.elim (fun n => BitVec.ofNat 32 n) fun n => BitVec.ofNat 32 n

/-- The common tail the stub jumps to. -/
def Stub.tail : Stub → StubLabel := Sum.elim (fun _ => .isrCommon) fun _ => .irqCommon

/-- The processor pushes an error code for the exceptions 8, 10 to 14 and 17. -/
def Stub.hasErrorCode : Stub → Bool :=
  Sum.elim (fun n => n = 8 ∨ (10 ≤ n ∧ n ≤ 14) ∨ n = 17) fun _ => false

/-- The processor at the first instruction of the stub, after it has pushed the frame. -/
def Stub.entered (v : Stub) (errorCode : BitVec 32) (frame : Cpu) : Cpu :=
  if v.hasErrorCode then frame.push errorCode else frame

/-- The processor at the first instruction of the common tail. -/
def Stub.atTail (v : Stub) (errorCode : BitVec 32) (frame : Cpu) : Cpu :=
  (frame.push (if v.hasErrorCode then errorCode else 0#32)).push v.number

/-- The C function returns to its caller with the stack as it found it: the stack pointer, its
return address, and the words above that up to the `depth` words from the frame on. -/
structure KeepsStack (depth : ℕ) (callee : Cpu → Cpu) (c : Cpu) : Prop where
  esp_eq : (callee c).esp = c.esp
  returns : (callee c).above 0 = c.above 0
  above_eq : ∀ k, 1 ≤ k → k < depth + 15 → (callee c).above k = c.above k

/-- The stub's two words are above the saved context. -/
lemma Stub.esp_atTail (v : Stub) (errorCode : BitVec 32) (frame : Cpu) :
    (v.atTail errorCode frame).esp = frame.esp - 8#32 := by
  rw [Stub.atTail, esp_push, esp_push]
  bv_omega

/-- `ISR_ERR` is used for exactly the exceptions with an error code. -/
lemma mem_isrErrNumbers_iff (n : Fin 20) :
    n.val ∈ isrErrNumbers ↔ Stub.hasErrorCode (.inl n) = true := by
  revert n
  decide

section

variable (wide : Bool) (link : KernelLink) (callee : Cpu → Cpu)

/-- Every stub reaches its common tail with two words above the frame. -/
lemma runToIret_stub (v : Stub) (errorCode : BitVec 32) (frame : Cpu) :
    ∃ k, Machine.runToIret wide (stubAssembly link) callee 21
        ⟨v.entered errorCode frame, v.label, 0⟩ =
      Machine.runToIret wide (stubAssembly link) callee (k + 18)
        ⟨v.atTail errorCode frame, v.tail, 0⟩ := by
  cases v with
  | inl n =>
    by_cases herr : Stub.hasErrorCode (.inl n) = true
    · have hcode : (stubAssembly link).code (.isr n) = isrErr n :=
        if_pos ((mem_isrErrNumbers_iff n).mpr herr)
      refine ⟨1, ?_⟩
      rw [Stub.entered, Stub.atTail, if_pos herr, if_pos herr]
      exact Machine.runToIret_of_jmp 19 [.pushImm (BitVec.ofNat 32 n)] (frame.push errorCode) hcode
        (by simp [Instr.IsStraight])
    · have hcode : (stubAssembly link).code (.isr n) = isrNoerr n :=
        if_neg fun hmem => herr ((mem_isrErrNumbers_iff n).mp hmem)
      refine ⟨0, ?_⟩
      rw [Stub.entered, Stub.atTail, if_neg herr, if_neg herr]
      exact Machine.runToIret_of_jmp 18 [.pushImm 0#32, .pushImm (BitVec.ofNat 32 n)] frame hcode
        (by simp [Instr.IsStraight])
  | inr n =>
    exact ⟨0, Machine.runToIret_of_jmp 18 [.pushImm 0#32, .pushImm (BitVec.ofNat 32 n)] frame rfl
      (by simp [Instr.IsStraight])⟩

/-- The processor at the entry of the C function. -/
def handlerEntry (l : StubLabel) (c : Cpu) : Cpu :=
  (loadSegments (saveContext wide c)).push (link.address l 11)

/-- The common tail saves the context, calls the C function and restores the context. -/
lemma runToIret_tail {l : StubLabel} (hl : stubCode l = commonTail) (k : ℕ) (c : Cpu)
    (hret : (callee (handlerEntry wide link l c)).above 0 = link.address l 11) :
    Machine.runToIret wide (stubAssembly link) callee (k + 18) ⟨c, l, 0⟩ =
      some ⟨restoreContext ((callee (handlerEntry wide link l c)).addEsp 4#32), l, 17⟩ := by
  have hcode : (stubAssembly link).code l = commonTail := hl
  have hsave : Machine.runToIret wide (stubAssembly link) callee (k + 18) ⟨c, l, 0⟩ =
      Machine.runToIret wide (stubAssembly link) callee (k + 8)
        ⟨loadSegments (saveContext wide c), l, 10⟩ :=
    Machine.runToIret_of_straight (k + 8) (commonTail.take 10) c (by rw [hcode]; rfl)
      (by simp [commonTail, Instr.IsStraight])
  have hrestore : ∀ d, Machine.runToIret wide (stubAssembly link) callee (k + 7) ⟨d, l, 11⟩ =
      Machine.runToIret wide (stubAssembly link) callee (k + 1) ⟨restoreContext d, l, 17⟩ :=
    fun d => Machine.runToIret_of_straight (k + 1) ((commonTail.drop 11).take 6) d
      (by rw [hcode]; rfl) (by simp [commonTail, Instr.IsStraight])
  have hfetch : ((stubAssembly link).code l)[10]? = some (.call .interruptHandler) := by
    rw [hcode]
    rfl
  have hcall : Machine.runToIret wide (stubAssembly link) callee (k + 8)
      ⟨loadSegments (saveContext wide c), l, 10⟩ =
      Machine.runToIret wide (stubAssembly link) callee (k + 7)
        ⟨(callee (handlerEntry wide link l c)).addEsp 4#32, l, 11⟩ := by
    rw [handlerEntry] at hret ⊢
    exact Machine.runToIret_of_call hfetch hret
  have hiret : ((stubAssembly link).code l)[17]? = some .iret := by
    rw [hcode]
    rfl
  rw [hsave, hcall, hrestore, Machine.runToIret_of_iret hiret]

end

/-- The frame the processor pushes; the other registers stay as they are. -/
lemma takeInterrupt_frame {g : IdtEntry} {c frame : Cpu} (h : c.takeInterrupt g = some frame) :
    (frame.above 0 = c.eip ∧ frame.above 1 = c.cs.setWidth 32 ∧ frame.above 2 = c.eflags) ∧
      (∀ r, r ≠ .esp → frame.regs r = c.regs r) ∧ frame.segs = c.segs := by
  rw [Cpu.takeInterrupt] at h
  split at h
  · have hframe := Option.some.inj h
    obtain ⟨c', hc'⟩ : ∃ c', c' = ((c.push c.eflags).push (c.cs.setWidth 32)).push c.eip := ⟨_, rfl⟩
    have hsame : ∀ k, frame.above k = c'.above k := by
      intro k
      rw [← hframe, hc']
      rfl
    refine ⟨⟨?_, ?_, ?_⟩, ?_, ?_⟩
    · rw [hsame, hc', above_push_zero]
    · rw [hsame, hc', above_push_of_pos _ _ (by norm_num) (by norm_num), above_push_zero]
    · rw [hsame, hc', above_push_of_pos _ _ (by norm_num) (by norm_num),
        above_push_of_pos _ _ (by norm_num) (by norm_num), above_push_zero]
    · intro r hr
      have hregs : frame.regs r = c'.regs r := by rw [← hframe, hc']
      rw [hregs, hc', regs_push hr, regs_push hr, regs_push hr]
    · rw [← hframe]
      rfl
  · exact absurd h (Option.some_ne_none frame).symm

/-- What the C function finds on the stack is the saved context; what it leaves there is the
same. -/
lemma KeepsStack.above_saveContext {depth : ℕ} (hdepth : depth + 15 ≤ 2 ^ 30) {wide : Bool}
    {link : KernelLink} {callee : Cpu → Cpu} {l : StubLabel} {c : Cpu}
    (h : KeepsStack depth callee (handlerEntry wide link l c)) {k : ℕ} (hk : k < depth + 14) :
    ((callee (handlerEntry wide link l c)).addEsp 4#32).above k = (saveContext wide c).above k := by
  have hskip : ((callee (handlerEntry wide link l c)).addEsp 4#32).above k =
      (callee (handlerEntry wide link l c)).above (k + 1) := above_addEsp 1 _ k
  rw [hskip, h.above_eq (k + 1) (by omega) (by omega), handlerEntry,
    above_push_succ _ _ (by omega), above_loadSegments]

/-- The return address is below the saved context. -/
lemma esp_handlerEntry (wide : Bool) (link : KernelLink) (l : StubLabel) (c : Cpu) :
    (handlerEntry wide link l c).esp = (saveContext wide c).esp - 4#32 := by
  have hload : (loadSegments (saveContext wide c)).esp = (saveContext wide c).esp := by
    rw [loadSegments, esp, esp]
    simp [setSeg, setReg]
  rw [handlerEntry, esp_push, hload]

lemma KeepsStack.esp_saveContext {depth : ℕ} {wide : Bool} {link : KernelLink}
    {callee : Cpu → Cpu} {l : StubLabel} {c : Cpu}
    (h : KeepsStack depth callee (handlerEntry wide link l c)) :
    ((callee (handlerEntry wide link l c)).addEsp 4#32).esp = (saveContext wide c).esp := by
  rw [esp_addEsp, h.esp_eq, esp_handlerEntry]
  bv_omega

/-- **The stubs restore the interrupted context.**  For every stub, every interrupted context and
every content of the stack, with an error code pushed exactly for the exceptions that have one: if
the C function, called with the context saved, returns with the stack as it found it, the stub
reaches its `iret` with the stack pointer at the frame the processor pushed, with the general and
segment registers as at the interruption, and with the words of the stack from the frame on
unchanged.  The stack has `depth` words from the frame on; it may fill the address space but for the
words pushed below the frame. -/
theorem stub_restores_context (wide : Bool) (link : KernelLink) (v : Stub) (errorCode : BitVec 32)
    (depth : ℕ) (hdepth : depth + 15 ≤ 2 ^ 30) (callee : Cpu → Cpu) (g : IdtEntry) (c frame : Cpu)
    (hframe : c.takeInterrupt g = some frame)
    (hcallee : KeepsStack depth callee
      (handlerEntry wide link v.tail (v.atTail errorCode frame))) :
    ∃ m, Machine.runToIret wide (stubAssembly link) callee 21
        ⟨v.entered errorCode frame, v.label, 0⟩ = some m ∧
      (stubCode m.label)[m.index]? = some .iret ∧
      (frame.above 0 = c.eip ∧ frame.above 1 = c.cs.setWidth 32 ∧ frame.above 2 = c.eflags) ∧
      m.cpu.esp = frame.esp ∧ (∀ r, r ≠ .esp → m.cpu.regs r = c.regs r) ∧
      m.cpu.segs = c.segs ∧ ∀ k < depth, m.cpu.above k = frame.above k := by
  obtain ⟨hwords, hregs, hsegs⟩ := takeInterrupt_frame hframe
  obtain ⟨k, hstub⟩ := runToIret_stub wide link callee v errorCode frame
  have htail : stubCode v.tail = commonTail := by cases v <;> rfl
  obtain ⟨c₂, hc₂⟩ : ∃ c₂, c₂ = v.atTail errorCode frame := ⟨_, rfl⟩
  rw [← hc₂] at hcallee
  have hret : (callee (handlerEntry wide link v.tail c₂)).above 0 = link.address v.tail 11 := by
    rw [hcallee.returns, handlerEntry, above_push_zero]
  have habove := fun k hk => hcallee.above_saveContext hdepth (k := k) hk
  have hrun := runToIret_tail wide link callee htail k c₂ hret
  rw [hc₂, ← hstub, ← hc₂] at hrun
  refine ⟨_, hrun, ?_, hwords, ?_, ?_, ?_, ?_⟩
  · rw [htail]
    rfl
  · rw [esp_restoreContext hcallee.esp_saveContext, hc₂, Stub.esp_atTail]
    bv_omega
  · intro r hr
    rw [regs_restoreContext (by omega) habove hr, hc₂, Stub.atTail, regs_push hr, regs_push hr,
      hregs r hr]
  · rw [segs_restoreContext habove, hc₂, ← hsegs]
    rfl
  · intro j hj
    rw [above_restoreContext (by omega) habove hj, hc₂, Stub.atTail,
      above_push_succ _ _ (by omega), above_push_succ _ _ (by omega)]

/-- A C function that writes two characters to the screen and changes every register but the stack
pointer. -/
def printAndClobber (c : Cpu) : Cpu where
  regs r := if r = .esp then c.esp else 0xDEAD#32
  segs _ := 0x10#16
  cs := c.cs
  eip := c.eip
  eflags := c.eflags
  mem := store32 c.mem 0xB8000#32 0x07210721#32

/-- It leaves a stack alone that is not on the screen. -/
lemma printAndClobber_keepsStack {depth : ℕ} {c : Cpu}
    (hstack : c.esp.toNat + 4 * (depth + 15) ≤ 0xB8000) : KeepsStack depth printAndClobber c := by
  have habove : ∀ k < depth + 15, (printAndClobber c).above k = c.above k := by
    intro k hk
    have haddr : (c.esp + BitVec.ofNat 32 (4 * k)).toNat + 4 ≤ 0xB8000 := by bv_omega
    exact load32_store32_of_apart c.mem _ (wordsApart_of_le haddr (by norm_num)).symm
  exact ⟨rfl, habove 0 (by omega), fun k _ hk => habove k hk⟩

/-- A general protection fault, which has an error code, returns to the interrupted program, with a
handler that writes to the screen. -/
theorem stub_restores_context_protection_fault :
    ∃ frame m, kernelContext.takeInterrupt (gateFor 0x101000#32 0x08#16 0x8E#8) = some frame ∧
      Machine.runToIret true (stubAssembly blockLink) printAndClobber 21
        ⟨Stub.entered (.inl 13) 0x18#32 frame, .isr 13, 0⟩ = some m ∧
      m.cpu.esp = frame.esp ∧ m.cpu.above 0 = kernelContext.eip ∧
      m.cpu.regs .eax = kernelContext.regs .eax := by
  obtain ⟨frame, hframe, -⟩ := Cpu.takeInterrupt_spec
    (g := gateFor 0x101000#32 0x08#16 0x8E#8) (by decide) kernelContext
  have hesp : frame.esp = 0x8FFF4#32 := by
    rw [← Option.some.inj hframe]
    decide
  have hkeep : KeepsStack 3 printAndClobber
      (handlerEntry true blockLink .isrCommon (Stub.atTail (.inl 13) 0x18#32 frame)) := by
    refine printAndClobber_keepsStack ?_
    rw [esp_handlerEntry, esp_saveContext, Stub.esp_atTail, hesp]
    decide
  obtain ⟨m, hrun, -, hwords, hm, hregs, -, habove⟩ := stub_restores_context true blockLink
    (.inl 13) 0x18#32 3 (by norm_num) printAndClobber _ kernelContext frame hframe hkeep
  refine ⟨frame, m, hframe, hrun, hm, ?_, hregs .eax (by decide)⟩
  rw [habove 0 (by norm_num), hwords.1]

end VVBright
