import Mathlib.Tactic
import VVBright.Foundation.Runs
import VVBright.Foundation.Words
import VVBright.Hardware.X86
import VVBright.Hardware.Pic

/-!
# The interrupt tables and the C side of interrupt handling

The functions of `interrupts.c`.  The state holds the interrupt descriptor table, the register that
points the processor to it, and the table of handlers.  A handler is a function pointer: `none` is
`NULL`, and the functions themselves are an arbitrary type `H`.  What the code does to the outside
(port writes, terminal output, calls of handlers) is returned as a list of effects.
-/

namespace VVBright

/-- The labels of the interrupt code: the stubs `isr0` to `isr19` and `irq0` to `irq15`, their two
common tails, and the C function they call. -/
inductive StubLabel
  | isr (n : Fin 20)
  | irq (n : Fin 16)
  | isrCommon
  | irqCommon
  | interruptHandler
  deriving DecidableEq

/-- The addresses chosen by the linker: one for each instruction of the stubs and one for the
descriptor table.  Different labels have different addresses. -/
structure KernelLink where
  address : StubLabel → ℕ → BitVec 32
  idt : BitVec 32
  entry_injective : Function.Injective fun l => address l 0

/-- The address of a stub. -/
def KernelLink.entry (link : KernelLink) (l : StubLabel) : BitVec 32 := link.address l 0

inductive InterruptEffect (H : Type)
  | callHandler (h : H)
  | setcolor (color : BitVec 8)
  | writestring (text : String)
  | outb (port : BitVec 16) (value : BitVec 8)
  | cli
  | hltLoop
  deriving DecidableEq

structure InterruptState (H : Type) where
  idt : BitVec 8 → IdtEntry
  idtr : IdtPtr
  handlers : BitVec 8 → Option H

/-- The twenty messages for the processor's exceptions. -/
def exceptionMessages : List String :=
  ["Division by Zero", "Debug", "Non-Maskable Interrupt", "Breakpoint", "Overflow",
    "Bound Range Exceeded", "Invalid Opcode", "Device Not Available", "Double Fault",
    "Coprocessor Segment Overrun", "Invalid TSS", "Segment Not Present", "Stack-Segment Fault",
    "General Protection Fault", "Page Fault", "Reserved", "x87 FPU Error", "Alignment Check",
    "Machine Check", "SIMD Floating-Point Exception"]

section

variable {H : Type}

/-- The entry `idt_set_gate` writes. -/
def gateFor (base : BitVec 32) (sel : BitVec 16) (flags : BitVec 8) : IdtEntry where
  offsetLow := (base &&& 0xFFFF#32).setWidth 16
  selector := sel
  zero := 0#8
  typeAttr := flags
  offsetHigh := ((base >>> 16) &&& 0xFFFF#32).setWidth 16

def idtSetGate (num : BitVec 8) (base : BitVec 32) (sel : BitVec 16) (flags : BitVec 8)
    (s : InterruptState H) : InterruptState H :=
  { s with idt := Function.update s.idt num (gateFor base sel flags) }

def registerInterruptHandler (interrupt : BitVec 8) (handler : Option H) (s : InterruptState H) :
    InterruptState H :=
  { s with handlers := Function.update s.handlers interrupt handler }

def irqInstallHandler (irq : BitVec 8) (handler : Option H) :
    InterruptState H → InterruptState H :=
  registerInterruptHandler (irq + 32#8) handler

def irqRemoveHandler (irq : BitVec 8) : InterruptState H → InterruptState H :=
  registerInterruptHandler (irq + 32#8) none

/-- The port writes of `pic_remap`, in order. -/
def picRemap : List (BitVec 16 × BitVec 8) :=
  [(0x20, 0x11), (0xA0, 0x11), (0x21, 0x20), (0xA1, 0x28), (0x21, 0x04), (0xA1, 0x02),
    (0x21, 0x01), (0xA1, 0x01), (0x21, 0x00), (0xA1, 0x00)]

def picSendEoi (irq : BitVec 8) : List (InterruptEffect H) :=
  if 8 ≤ irq.toNat then [.outb 0xA0 0x20, .outb 0x20 0x20] else [.outb 0x20 0x20]

/-- The C function the stubs call.  The result is `none` where it reads outside one of its two
tables: `interrupt_handlers` has 256 entries, `exception_messages` has 20.  The second argument is
not used. -/
def interruptHandler (s : InterruptState H) (interruptNumber _errorCode : BitVec 32) :
    Option (List (InterruptEffect H)) :=
  if interruptNumber.toNat < 256 then
    match s.handlers (interruptNumber.setWidth 8) with
    | some h => some [.callHandler h]
    | none =>
      if interruptNumber.toNat < 32 then
        exceptionMessages[interruptNumber.toNat]?.map fun message =>
          [.setcolor 12, .writestring "EXCEPTION: ", .writestring message,
            .writestring "\nSystem halted.", .cli, .hltLoop]
      else some (picSendEoi ((interruptNumber - 32#32).setWidth 8))
  else none

/-! ## Initialisation -/

/-- One round of the loop that clears both tables. -/
def clearEntry (s : InterruptState H) (i : ℕ) : InterruptState H :=
  idtSetGate (BitVec.ofNat 8 i) 0 0 0
    { s with handlers := Function.update s.handlers (BitVec.ofNat 8 i) none }

/-- Consecutive gates from `base` on for a family of stubs. -/
def setStubGates {k : ℕ} (base : ℕ) (stub : Fin k → BitVec 32) (s : InterruptState H) :
    InterruptState H :=
  (List.finRange k).foldl
    (fun s (i : Fin k) => idtSetGate (BitVec.ofNat 8 (base + i)) (stub i) 0x08 0x8E s) s

/-- The tables after `interrupts_init`. -/
def interruptsInit (link : KernelLink) (s : InterruptState H) : InterruptState H :=
  let cleared := (List.range 256).foldl clearEntry s
  let exceptions := setStubGates 0 (fun n => link.entry (.isr n)) cleared
  let irqs := setStubGates 32 (fun n => link.entry (.irq n)) exceptions
  { irqs with idtr := ⟨BitVec.ofNat 16 (8 * 256 - 1), link.idt⟩ }

/-- What `interrupts_init` does to the outside. -/
def interruptsInitEffects : List (InterruptEffect H) :=
  .writestring "Initializing interrupts...\n" ::
    picRemap.map (fun w => .outb w.1 w.2) ++ [.writestring "Interrupt system ready\n"]

/-- The two halves of a gate's offset make up the address it was set to. -/
lemma offset_gateFor (base : BitVec 32) (sel : BitVec 16) (flags : BitVec 8) :
    (gateFor base sel flags).offset = base := by
  have hmask : 0xFFFF#32 = fieldMask 32 0 16 := by decide
  apply BitVec.eq_of_getLsbD_eq
  intro i hi
  rw [IdtEntry.offset, gateFor, hmask, BitVec.getLsbD_append]
  by_cases hlow : i < 16
  · simp [hlow, getLsbD_fieldMask 0 16 hi]
  · have hrest : 16 + (i - 16) = i := by omega
    simp [hlow, getLsbD_fieldMask 0 16 (show i - 16 < 32 by omega), hrest,
      show i - 16 < 16 by omega]

/-- Every round clears one handler and none is set again. -/
lemma handlers_clear (l : List ℕ) (s : InterruptState H) {v : BitVec 8}
    (h : s.handlers v = none ∨ ∃ i ∈ l, v = BitVec.ofNat 8 i) :
    (l.foldl clearEntry s).handlers v = none := by
  induction l generalizing s with
  | nil => simpa using h
  | cons i l ih =>
    refine ih _ ?_
    by_cases hv : v = BitVec.ofNat 8 i
    · exact .inl (by simp [clearEntry, idtSetGate, hv])
    · have hs : (clearEntry s i).handlers v = s.handlers v := Function.update_of_ne hv _ _
      rw [hs]
      refine h.imp_right ?_
      rintro ⟨j, hj, rfl⟩
      rcases List.mem_cons.mp hj with rfl | hj
      · exact absurd rfl hv
      · exact ⟨j, hj, rfl⟩

lemma handlers_setStubGates {k : ℕ} (base : ℕ) (stub : Fin k → BitVec 32)
    (s : InterruptState H) : (setStubGates base stub s).handlers = s.handlers := by
  rw [setStubGates]
  induction List.finRange k generalizing s with
  | nil => rfl
  | cons i l ih => exact ih _

/-- Each stub of a family gets its own gate: the later settings go to other entries. -/
lemma idt_setStubGates {k base : ℕ} (hk : base + k ≤ 256) (stub : Fin k → BitVec 32)
    (s : InterruptState H) (i : Fin k) :
    (setStubGates base stub s).idt (BitVec.ofNat 8 (base + i)) = gateFor (stub i) 0x08 0x8E := by
  have hset : ∀ (l : List (Fin k)) (t : InterruptState H),
      i ∈ l ∨ t.idt (BitVec.ofNat 8 (base + i)) = gateFor (stub i) 0x08 0x8E →
      (l.foldl (fun s (j : Fin k) => idtSetGate (BitVec.ofNat 8 (base + j)) (stub j) 0x08 0x8E s)
        t).idt (BitVec.ofNat 8 (base + i)) = gateFor (stub i) 0x08 0x8E := by
    intro l
    induction l with
    | nil => simp
    | cons j l ih =>
      intro t ht
      refine ih _ ?_
      by_cases hij : i = j
      · subst hij
        exact .inr (Function.update_self _ _ _)
      · have hne : BitVec.ofNat 8 (base + i) ≠ BitVec.ofNat 8 (base + j) := by
          have := Fin.val_ne_of_ne hij
          intro h
          have := congrArg BitVec.toNat h
          simp only [BitVec.toNat_ofNat] at this
          omega
        refine ht.imp (fun h => (List.mem_cons.mp h).resolve_left hij) fun h => ?_
        exact (Function.update_of_ne hne _ _).trans h
  exact hset _ s (.inl (List.mem_finRange i))

/-- `interrupts_init` leaves no handler installed. -/
theorem handlers_interruptsInit (link : KernelLink) (s : InterruptState H) (v : BitVec 8) :
    (interruptsInit link s).handlers v = none := by
  have hclear : ((List.range 256).foldl clearEntry s).handlers v = none :=
    handlers_clear _ s (.inr ⟨v.toNat, List.mem_range.mpr v.isLt, by simp⟩)
  rw [interruptsInit]
  dsimp only
  rw [handlers_setStubGates, handlers_setStubGates, hclear]

/-- `interrupts_init` points the vector `32 + n` to the stub `irq n`. -/
theorem idt_interruptsInit_irq (link : KernelLink) (s : InterruptState H) (n : Fin 16) :
    (interruptsInit link s).idt (BitVec.ofNat 8 (32 + n)) =
      gateFor (link.entry (.irq n)) 0x08 0x8E := by
  rw [interruptsInit]
  dsimp only
  rw [idt_setStubGates (by omega)]

end

end VVBright
