import Mathlib.Tactic
import VVBright.Foundation.ByteMemory

/-!
# A 32-bit x86 processor entering and leaving interrupts

The processor state holds the general and segment registers and the memory; the stack is the memory
around `esp`.  `Cpu.above k` is the `k`-th word at or above the top of the stack and `Cpu.below k`
the `k`-th word below it: pushing moves every word one place up (`above_push_succ`, `below_push`),
so the words a piece of code finds on the stack are read off by counting pushes.

Code is given by labelled blocks of instructions.  An `Assembly` gives each label its block and each
instruction its address; `Machine.step` executes one instruction and `Machine.runUntil` runs to a
label.  `Machine.runToIret` runs to the end of interrupt code, with the functions it calls given
from outside.  Pushing a segment register is left open by the architecture: the stack word is either
the zero-extended selector or the old word with its low half replaced.  The parameter `wide`
chooses.
-/

namespace VVBright

inductive Reg
  | eax | ecx | edx | ebx | esp | ebp | esi | edi
  deriving DecidableEq

inductive Seg
  | ds | es | fs | gs
  deriving DecidableEq

/-- The state of the processor.  The arithmetic flags within `eflags` are not tracked: no
instruction below reads them. -/
structure Cpu where
  regs : Reg → BitVec 32
  segs : Seg → BitVec 16
  cs : BitVec 16
  eip : BitVec 32
  eflags : BitVec 32
  mem : Memory

namespace Cpu

/-- The stack pointer. -/
def esp (c : Cpu) : BitVec 32 := c.regs .esp

def setReg (r : Reg) (v : BitVec 32) (c : Cpu) : Cpu :=
  { c with regs := Function.update c.regs r v }

def setSeg (r : Seg) (v : BitVec 16) (c : Cpu) : Cpu :=
  { c with segs := Function.update c.segs r v }

/-- The word `k` places above the top of the stack. -/
def above (k : ℕ) (c : Cpu) : BitVec 32 := load32 c.mem (c.esp + BitVec.ofNat 32 (4 * k))

/-- The word `k` places below the top of the stack. -/
def below (k : ℕ) (c : Cpu) : BitVec 32 := load32 c.mem (c.esp - BitVec.ofNat 32 (4 * k))

/-! ## Pushing and popping -/

def push (v : BitVec 32) (c : Cpu) : Cpu :=
  setReg .esp (c.esp - 4#32) { c with mem := store32 c.mem (c.esp - 4#32) v }

/-- The stack word after pushing the selector `sel` over the word `old`. -/
def segWord (wide : Bool) (old : BitVec 32) (sel : BitVec 16) : BitVec 32 :=
  if wide then sel.setWidth 32 else old.extractLsb' 16 16 ++ sel

def pushSeg (wide : Bool) (r : Seg) (c : Cpu) : Cpu :=
  c.push (segWord wide (c.below 1) (c.segs r))

/-- The stack pointer moves up over `n` bytes. -/
def addEsp (n : BitVec 32) (c : Cpu) : Cpu := c.setReg .esp (c.esp + n)

def popReg (r : Reg) (c : Cpu) : Cpu := (c.addEsp 4#32).setReg r (c.above 0)

def popSeg (r : Seg) (c : Cpu) : Cpu := (c.addEsp 4#32).setSeg r ((c.above 0).setWidth 16)

/-- The eight general registers, with the stack pointer as it was before the first push. -/
def pusha (c : Cpu) : Cpu :=
  (((((((c.push (c.regs .eax)).push (c.regs .ecx)).push (c.regs .edx)).push (c.regs .ebx)).push
    c.esp).push (c.regs .ebp)).push (c.regs .esi)).push (c.regs .edi)

/-- The general registers in the opposite order; the saved stack pointer is skipped. -/
def popa (c : Cpu) : Cpu :=
  (((((((c.popReg .edi).popReg .esi).popReg .ebp).addEsp 4#32).popReg .ebx).popReg .edx).popReg
    .ecx).popReg .eax

@[simp] lemma esp_push (v : BitVec 32) (c : Cpu) : (c.push v).esp = c.esp - 4#32 := by
  simp [push, setReg, esp]

@[simp] lemma segs_push (v : BitVec 32) (c : Cpu) : (c.push v).segs = c.segs := rfl

@[simp] lemma segs_pushSeg (wide : Bool) (r : Seg) (c : Cpu) :
    (c.pushSeg wide r).segs = c.segs := rfl

@[simp] lemma segs_pusha (c : Cpu) : c.pusha.segs = c.segs := rfl

/-- The word just pushed is on top. -/
@[simp] lemma above_push_zero (v : BitVec 32) (c : Cpu) : (c.push v).above 0 = v := by
  rw [above, esp_push, Nat.mul_zero, BitVec.add_zero]
  exact load32_store32_same _ _ _

/-- Pushing moves the words on the stack one place up. -/
lemma above_push_succ (v : BitVec 32) (c : Cpu) {k : ℕ} (hk : k + 1 < 2 ^ 30) :
    (c.push v).above (k + 1) = c.above k := by
  have ha : c.esp - 4#32 + BitVec.ofNat 32 (4 * (k + 1)) = c.esp + BitVec.ofNat 32 (4 * k) := by
    bv_omega
  rw [above, esp_push, ha]
  refine load32_store32_of_apart _ _ ⟨?_, ?_⟩ <;> bv_omega

/-- Pushing brings the words below the top one place nearer, and overwrites only the first. -/
lemma below_push (v : BitVec 32) (c : Cpu) {k : ℕ} (hk : 1 ≤ k) (hk' : k + 1 < 2 ^ 30) :
    (c.push v).below k = c.below (k + 1) := by
  have ha : c.esp - 4#32 - BitVec.ofNat 32 (4 * k) = c.esp - BitVec.ofNat 32 (4 * (k + 1)) := by
    bv_omega
  rw [below, esp_push, ha]
  refine load32_store32_of_apart _ _ ⟨?_, ?_⟩ <;> bv_omega

@[simp] lemma above_pushSeg_zero (wide : Bool) (r : Seg) (c : Cpu) :
    (c.pushSeg wide r).above 0 = segWord wide (c.below 1) (c.segs r) :=
  above_push_zero _ c

lemma above_pushSeg_succ (wide : Bool) (r : Seg) (c : Cpu) {k : ℕ} (hk : k + 1 < 2 ^ 30) :
    (c.pushSeg wide r).above (k + 1) = c.above k :=
  above_push_succ _ c hk

lemma below_pushSeg (wide : Bool) (r : Seg) (c : Cpu) {k : ℕ} (hk : 1 ≤ k)
    (hk' : k + 1 < 2 ^ 30) : (c.pushSeg wide r).below k = c.below (k + 1) :=
  below_push _ c hk hk'

@[simp] lemma above_setSeg (r : Seg) (v : BitVec 16) (c : Cpu) (k : ℕ) :
    (c.setSeg r v).above k = c.above k := rfl

@[simp] lemma above_setReg {r : Reg} (hr : r ≠ .esp) (v : BitVec 32) (c : Cpu) (k : ℕ) :
    (c.setReg r v).above k = c.above k := by
  rw [above, above, esp, esp, setReg]
  dsimp only
  rw [Function.update_of_ne hr.symm]

lemma below_pusha (c : Cpu) {k : ℕ} (hk : 1 ≤ k) (hk' : k + 8 < 2 ^ 30) :
    c.pusha.below k = c.below (k + 8) := by
  rw [pusha, below_push _ _ (by omega) (by omega), below_push _ _ (by omega) (by omega),
    below_push _ _ (by omega) (by omega), below_push _ _ (by omega) (by omega),
    below_push _ _ (by omega) (by omega), below_push _ _ (by omega) (by omega),
    below_push _ _ (by omega) (by omega), below_push _ _ (by omega) (by omega)]

lemma above_pusha (c : Cpu) {k : ℕ} (hk : k + 8 < 2 ^ 30) : c.pusha.above (k + 8) = c.above k := by
  rw [pusha, above_push_succ _ _ (by omega), above_push_succ _ _ (by omega),
    above_push_succ _ _ (by omega), above_push_succ _ _ (by omega),
    above_push_succ _ _ (by omega), above_push_succ _ _ (by omega),
    above_push_succ _ _ (by omega), above_push_succ _ _ (by omega)]

/-- The place of a register among the words `pusha` leaves on the stack. -/
def pushaSlot : Reg → ℕ
  | .edi => 0
  | .esi => 1
  | .ebp => 2
  | .esp => 3
  | .ebx => 4
  | .edx => 5
  | .ecx => 6
  | .eax => 7

lemma pushaSlot_lt (r : Reg) : pushaSlot r < 8 := by
  cases r <;> decide

lemma regs_push {r : Reg} (hr : r ≠ .esp) (v : BitVec 32) (c : Cpu) :
    (c.push v).regs r = c.regs r :=
  Function.update_of_ne hr _ _

lemma above_push_of_pos (v : BitVec 32) (c : Cpu) {k : ℕ} (hk : 0 < k) (hk' : k < 2 ^ 30) :
    (c.push v).above k = c.above (k - 1) := by
  obtain ⟨j, rfl⟩ := Nat.exists_eq_add_of_lt hk
  rw [Nat.zero_add, Nat.add_sub_cancel]
  exact above_push_succ v c (by omega)

/-- Each register is in its place after `pusha`. -/
lemma above_pusha_slot (c : Cpu) (r : Reg) : c.pusha.above (pushaSlot r) = c.regs r := by
  cases r <;> simp [pusha, pushaSlot, above_push_of_pos, esp]

lemma esp_pusha (c : Cpu) : c.pusha.esp = c.esp - 32#32 := by
  simp only [pusha, esp_push]
  bv_omega

@[simp] lemma esp_addEsp (n : BitVec 32) (c : Cpu) : (c.addEsp n).esp = c.esp + n := by
  simp [addEsp, setReg, esp]

lemma regs_addEsp {r : Reg} (hr : r ≠ .esp) (n : BitVec 32) (c : Cpu) :
    (c.addEsp n).regs r = c.regs r :=
  Function.update_of_ne hr _ _

/-- Moving the stack pointer up over `n` words brings the words above it as many places nearer. -/
lemma above_addEsp (n : ℕ) (c : Cpu) (k : ℕ) :
    (c.addEsp (BitVec.ofNat 32 (4 * n))).above k = c.above (k + n) := by
  have ha : c.esp + BitVec.ofNat 32 (4 * n) + BitVec.ofNat 32 (4 * k) =
      c.esp + BitVec.ofNat 32 (4 * (k + n)) := by
    rw [BitVec.add_assoc, ← BitVec.ofNat_add, Nat.mul_add, Nat.add_comm (4 * k)]
  rw [above, esp_addEsp, ha]
  rfl

section

variable {r : Reg} (hr : r ≠ .esp) (c : Cpu)

include hr

lemma esp_popReg : (c.popReg r).esp = c.esp + 4#32 := by
  rw [popReg, esp, setReg]
  dsimp only
  rw [Function.update_of_ne hr.symm]
  exact esp_addEsp 4#32 c

lemma above_popReg (k : ℕ) : (c.popReg r).above k = c.above (k + 1) := by
  rw [popReg, above_setReg hr]
  exact above_addEsp 1 c k

end

lemma regs_popReg (r : Reg) (c : Cpu) {r' : Reg} (hr' : r' ≠ .esp) :
    (c.popReg r).regs r' = if r' = r then c.above 0 else c.regs r' := by
  rw [popReg, setReg]
  dsimp only
  rw [Function.update_apply, regs_addEsp hr']

/-- `popa` loads each register but the stack pointer from its place. -/
lemma regs_popa (c : Cpu) {r : Reg} (hr : r ≠ .esp) : c.popa.regs r = c.above (pushaSlot r) := by
  have hskip : ∀ (c : Cpu) (k : ℕ), (c.addEsp 4#32).above k = c.above (k + 1) := above_addEsp 1
  cases r
  case esp => exact absurd rfl hr
  all_goals
    simp [popa, pushaSlot, regs_popReg, regs_addEsp, above_popReg, hskip]

lemma esp_popa (c : Cpu) : c.popa.esp = c.esp + 32#32 := by
  simp only [popa, esp_popReg, ne_eq, reduceCtorEq, not_false_eq_true, esp_addEsp]
  bv_omega

lemma above_popa (c : Cpu) (k : ℕ) : c.popa.above k = c.above (k + 8) := by
  have hskip : ∀ (c : Cpu) (k : ℕ), (c.addEsp 4#32).above k = c.above (k + 1) := above_addEsp 1
  simp only [popa, above_popReg, ne_eq, reduceCtorEq, not_false_eq_true, hskip]

lemma esp_popSeg (r : Seg) (c : Cpu) : (c.popSeg r).esp = c.esp + 4#32 := esp_addEsp 4#32 c

lemma above_popSeg (r : Seg) (c : Cpu) (k : ℕ) : (c.popSeg r).above k = c.above (k + 1) :=
  above_addEsp 1 c k

lemma segs_popSeg (r r' : Seg) (c : Cpu) :
    (c.popSeg r).segs r' = if r' = r then (c.above 0).setWidth 16 else c.segs r' :=
  Function.update_apply _ _ _ _

/-- The selector is the low half of the word pushed for it. -/
lemma setWidth_segWord (wide : Bool) (old : BitVec 32) (sel : BitVec 16) :
    (segWord wide old sel).setWidth 16 = sel := by
  apply BitVec.eq_of_getLsbD_eq
  intro i hi
  rw [BitVec.getLsbD_setWidth, segWord]
  split
  · simp [hi, show i < 32 by omega]
  · rw [BitVec.getLsbD_append]
    simp [hi]

end Cpu

/-! ## Interrupt gates -/

/-- An entry of the interrupt descriptor table. -/
structure IdtEntry where
  offsetLow : BitVec 16
  selector : BitVec 16
  zero : BitVec 8
  typeAttr : BitVec 8
  offsetHigh : BitVec 16
  deriving DecidableEq

/-- The limit and base loaded into the descriptor table register. -/
structure IdtPtr where
  limit : BitVec 16
  base : BitVec 32
  deriving DecidableEq

/-- The address a gate leads to. -/
def IdtEntry.offset (g : IdtEntry) : BitVec 32 := g.offsetHigh ++ g.offsetLow

/-- The entry is present and is a 32-bit interrupt gate. -/
def IdtEntry.isInterruptGate (g : IdtEntry) : Bool :=
  g.typeAttr.getLsbD 7 && g.typeAttr &&& 0x1F#8 == 0x0E#8

/-- The processor takes an interrupt through a gate at its own privilege level: it pushes the flags,
the code segment and the instruction pointer, masks interrupts and continues at the gate's
address. -/
def Cpu.takeInterrupt (g : IdtEntry) (c : Cpu) : Option Cpu :=
  if g.isInterruptGate then
    let c' := ((c.push c.eflags).push (c.cs.setWidth 32)).push c.eip
    some { c' with cs := g.selector, eip := g.offset, eflags := c.eflags &&& ~~~(1#32 <<< 9) }
  else none

/-- Taking an interrupt pushes three words, keeps the data segments and goes to the gate's
address. -/
lemma Cpu.takeInterrupt_spec {g : IdtEntry} (hg : g.isInterruptGate = true) (c : Cpu) :
    ∃ c', c.takeInterrupt g = some c' ∧ c'.segs = c.segs ∧
      (∀ k, 1 ≤ k → k + 3 < 2 ^ 30 → c'.below k = c.below (k + 3)) ∧ c'.eip = g.offset := by
  refine ⟨_, if_pos hg, rfl, fun k hk hk' => ?_, rfl⟩
  have hpush : (((c.push c.eflags).push (c.cs.setWidth 32)).push c.eip).below k =
      c.below (k + 3) := by
    rw [below_push _ _ hk (by omega), below_push _ _ (by omega) (by omega),
      below_push _ _ (by omega) (by omega)]
  exact hpush

/-! ## Code -/

/-- The instructions of interrupt entry code, with jump targets in `Λ`. -/
inductive Instr (Λ : Type)
  | pushImm (v : BitVec 32)
  | pushSeg (r : Seg)
  | pusha
  | movAx (v : BitVec 16)
  | movSegAx (r : Seg)
  | call (target : Λ)
  | popSeg (r : Seg)
  | popa
  | addEsp (n : BitVec 32)
  | jmp (target : Λ)
  | iret

/-- Control passes from the instruction to the one after it. -/
def Instr.IsStraight {Λ : Type} : Instr Λ → Prop
  | .call _ | .jmp _ | .iret => False
  | _ => True

lemma Instr.IsStraight.ne_call {Λ : Type} {i : Instr Λ} (h : i.IsStraight) (l : Λ) :
    i ≠ .call l := by
  rintro rfl
  exact h

/-- What an instruction does to the processor, where control passes to the one after it. -/
def Instr.effect {Λ : Type} (wide : Bool) : Instr Λ → Cpu → Cpu
  | .pushImm v, c => c.push v
  | .pushSeg r, c => c.pushSeg wide r
  | .pusha, c => c.pusha
  | .movAx v, c => c.setReg .eax ((c.regs .eax).extractLsb' 16 16 ++ v)
  | .movSegAx r, c => c.setSeg r ((c.regs .eax).setWidth 16)
  | .popSeg r, c => c.popSeg r
  | .popa, c => c.popa
  | .addEsp n, c => c.addEsp n
  | _, c => c

/-- Code in labelled blocks, placed at addresses. -/
structure Assembly (Λ : Type) where
  code : Λ → List (Instr Λ)
  address : Λ → ℕ → BitVec 32

/-- A processor about to execute the instruction `index` of the block `label`. -/
structure Machine (Λ : Type) where
  cpu : Cpu
  label : Λ
  index : ℕ

namespace Machine

variable {Λ : Type} (wide : Bool) (p : Assembly Λ)

/-- The instruction is done and control passes to the one after it. -/
def next (m : Machine Λ) (c : Cpu) : Machine Λ := ⟨c, m.label, m.index + 1⟩

/-- The effect of one instruction.  Returning from the interrupt leaves the code, so the machine
stops there. -/
def exec (m : Machine Λ) : Instr Λ → Option (Machine Λ)
  | .pushImm v => some (m.next (m.cpu.push v))
  | .pushSeg r => some (m.next (m.cpu.pushSeg wide r))
  | .pusha => some (m.next m.cpu.pusha)
  | .movAx v =>
      some (m.next (m.cpu.setReg .eax ((m.cpu.regs .eax).extractLsb' 16 16 ++ v)))
  | .movSegAx r => some (m.next (m.cpu.setSeg r ((m.cpu.regs .eax).setWidth 16)))
  | .call target => some ⟨m.cpu.push (p.address m.label (m.index + 1)), target, 0⟩
  | .popSeg r => some (m.next (m.cpu.popSeg r))
  | .popa => some (m.next m.cpu.popa)
  | .addEsp n => some (m.next (m.cpu.addEsp n))
  | .jmp target => some ⟨m.cpu, target, 0⟩
  | .iret => none

def step (m : Machine Λ) : Option (Machine Λ) :=
  (p.code m.label)[m.index]?.bind (m.exec wide p)

/-- Run until control reaches a label that satisfies `stop`, for at most the given number of
instructions. -/
def runUntil (stop : Λ → Bool) : ℕ → Machine Λ → Option (Machine Λ)
  | 0, m => if stop m.label then some m else none
  | fuel + 1, m =>
      if stop m.label then some m else (m.step wide p).bind (runUntil stop fuel)

/-- One instruction, with a call taken as a whole.  The called function is given by the state in
which it executes its `ret`, as a function of the state in which it is entered; the `ret` has to
find the address of the instruction after the call on top of the stack. -/
def stepOver (callee : Cpu → Cpu) (m : Machine Λ) : Option (Machine Λ) :=
  match (p.code m.label)[m.index]? with
  | some (.call _) =>
      let c := callee (m.cpu.push (p.address m.label (m.index + 1)))
      if c.above 0 = p.address m.label (m.index + 1) then some (m.next (c.addEsp 4#32)) else none
  | some i => m.exec wide p i
  | none => none

/-- Run until the next instruction is `iret`, for at most the given number of instructions. -/
def runToIret (callee : Cpu → Cpu) : ℕ → Machine Λ → Option (Machine Λ)
  | 0, _ => none
  | fuel + 1, m =>
      match (p.code m.label)[m.index]? with
      | some .iret => some m
      | _ => (m.stepOver wide p callee).bind (runToIret callee fuel)

variable {wide p} {callee : Cpu → Cpu} {fuel : ℕ} {m : Machine Λ}

lemma exec_of_straight {i : Instr Λ} (hi : i.IsStraight) (m : Machine Λ) :
    m.exec wide p i = some (m.next (i.effect wide m.cpu)) := by
  cases i <;> first | rfl | exact hi.elim

/-- An instruction other than a call, on the way to `iret`. -/
lemma runToIret_of_exec {i : Instr Λ} {m' : Machine Λ}
    (hfetch : (p.code m.label)[m.index]? = some i)
    (hcall : ∀ l, i ≠ .call l) (hexec : m.exec wide p i = some m') :
    runToIret wide p callee (fuel + 1) m = runToIret wide p callee fuel m' := by
  have hover : m.stepOver wide p callee = some m' := by
    rw [stepOver, hfetch]
    cases i <;> first | exact hexec | exact absurd rfl (hcall _)
  rw [runToIret, hfetch, hover]
  cases i <;> first | rfl | exact absurd hexec (Option.some_ne_none m').symm

/-- A sequence of instructions without jumps, on the way to `iret`. -/
theorem runToIret_of_straight (fuel : ℕ) (is : List (Instr Λ)) {rest : List (Instr Λ)} {l : Λ}
    {j : ℕ} (c : Cpu) (hcode : (p.code l).drop j = is ++ rest) (his : ∀ i ∈ is, i.IsStraight) :
    runToIret wide p callee (fuel + is.length) ⟨c, l, j⟩ =
      runToIret wide p callee fuel
        ⟨is.foldl (fun c i => i.effect wide c) c, l, j + is.length⟩ := by
  induction is generalizing c j with
  | nil => rfl
  | cons i is ih =>
    rw [List.forall_mem_cons] at his
    have hfetch : (p.code l)[j]? = some i := by
      have h : ((p.code l).drop j)[0]? = (p.code l)[j + 0]? := List.getElem?_drop
      rw [hcode] at h
      exact h.symm
    have hdrop : (p.code l).drop (j + 1) = is ++ rest := by
      rw [← List.drop_drop, hcode]
      rfl
    rw [List.length_cons, ← Nat.add_assoc, runToIret_of_exec hfetch his.1.ne_call
      (exec_of_straight his.1 _), Machine.next]
    rw [ih (i.effect wide c) hdrop his.2, List.foldl_cons, Nat.add_right_comm, Nat.add_assoc]

/-- A block of instructions without jumps that ends with a jump, on the way to `iret`. -/
lemma runToIret_of_jmp (fuel : ℕ) (is : List (Instr Λ)) {l l' : Λ} (c : Cpu)
    (hcode : p.code l = is ++ [.jmp l']) (his : ∀ i ∈ is, i.IsStraight) :
    runToIret wide p callee (fuel + 1 + is.length) ⟨c, l, 0⟩ =
      runToIret wide p callee fuel ⟨is.foldl (fun c i => i.effect wide c) c, l', 0⟩ := by
  have hfetch : (p.code l)[0 + is.length]? = some (.jmp l') := by
    rw [hcode, Nat.zero_add, List.getElem?_append_right le_rfl, Nat.sub_self]
    rfl
  have hdrop : (p.code l).drop 0 = is ++ [.jmp l'] := hcode
  rw [runToIret_of_straight (fuel + 1) is c hdrop his]
  exact runToIret_of_exec hfetch (by simp) rfl

/-- A call that returns, on the way to `iret`. -/
lemma runToIret_of_call {l : Λ} (hfetch : (p.code m.label)[m.index]? = some (.call l))
    (hret : (callee (m.cpu.push (p.address m.label (m.index + 1)))).above 0 =
      p.address m.label (m.index + 1)) :
    runToIret wide p callee (fuel + 1) m = runToIret wide p callee fuel
      (m.next ((callee (m.cpu.push (p.address m.label (m.index + 1)))).addEsp 4#32)) := by
  have hover : m.stepOver wide p callee =
      some (m.next ((callee (m.cpu.push (p.address m.label (m.index + 1)))).addEsp 4#32)) := by
    rw [stepOver, hfetch]
    exact if_pos hret
  rw [runToIret, hfetch, hover]
  rfl

lemma runToIret_of_iret (hfetch : (p.code m.label)[m.index]? = some .iret) :
    runToIret wide p callee (fuel + 1) m = some m := by
  rw [runToIret, hfetch]

end Machine

end VVBright
