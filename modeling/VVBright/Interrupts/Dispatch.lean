import Mathlib.Tactic
import VVBright.Interrupts.Stubs

/-!
# Dispatch of hardware interrupts

An interrupt request on a line travels from the interrupt controllers through the descriptor table
and the assembly stub to `interrupt_handler`.  `deliverIrq` is that path as a whole, for handler
tables built by any sequence of registrations after `interrupts_init`.

The controllers, the table and the stubs agree on the vector `32 + n` for the line `n`
(`vector_afterInit`, `fetchGate_irq`), but the number that reaches `interrupt_handler` is the word
pushed for `GS` (`deliverIrq_eq`).  `deliverIrq_iff_seesLine` says exactly when that number leads to
the handler of the line all the same.
-/

namespace VVBright

variable {H : Type}

/-! ## Registering handlers -/

/-- A call that changes the handler table: `register_interrupt_handler` for an exception,
`irq_install_handler` or `irq_remove_handler` for an interrupt line. -/
inductive HandlerCall (H : Type)
  | register (interrupt : Fin 32) (h : Option H)
  | install (irq : Fin 16) (h : Option H)
  | remove (irq : Fin 16)

def handlerStep : HandlerCall H → InterruptState H → InterruptState H
  | .register v h => registerInterruptHandler (BitVec.ofNat 8 v) h
  | .install n h => irqInstallHandler (BitVec.ofNat 8 n) h
  | .remove n => irqRemoveHandler (BitVec.ofNat 8 n)

/-- What a call says about the line `n`: nothing, or the handler the line has after it. -/
def HandlerCall.forLine (n : Fin 16) : HandlerCall H → Option (Option H)
  | .register _ _ => none
  | .install k h => if k = n then some h else none
  | .remove k => if k = n then some none else none

/-- The handler most recently installed for the line `n`, `none` if there is none or it was
removed. -/
def mostRecent (n : Fin 16) (calls : List (HandlerCall H)) : Option H :=
  (calls.filterMap (HandlerCall.forLine n)).getLast?.join

/-- The vector of the line `n`. -/
def irqVector (n : Fin 16) : BitVec 8 := BitVec.ofNat 8 (32 + n)

lemma ofNat_add_thirtyTwo (n : Fin 16) : BitVec.ofNat 8 n + 32#8 = irqVector n := by
  rw [irqVector, BitVec.ofNat_add, BitVec.add_comm]

lemma irqVector_injective : Function.Injective irqVector := by decide

lemma ofNat_ne_irqVector (v : Fin 32) (n : Fin 16) : BitVec.ofNat 8 v ≠ irqVector n := by
  revert v n
  decide

lemma handlers_register_irqVector (k n : Fin 16) (h : Option H) (s : InterruptState H) :
    (registerInterruptHandler (irqVector k) h s).handlers (irqVector n) =
      if k = n then h else s.handlers (irqVector n) := by
  rw [registerInterruptHandler]
  dsimp only
  split
  · rename_i hk
    rw [hk, Function.update_self]
  · rename_i hk
    rw [Function.update_of_ne (irqVector_injective.ne (Ne.symm hk))]

/-- A call changes the entry of the line it is about and no other line's. -/
lemma handlers_handlerStep (a : HandlerCall H) (s : InterruptState H) (n : Fin 16) :
    (handlerStep a s).handlers (irqVector n) =
      (a.forLine n).getD (s.handlers (irqVector n)) := by
  cases a with
  | register v h => exact Function.update_of_ne (ofNat_ne_irqVector v n).symm _ _
  | install k h =>
    rw [handlerStep, irqInstallHandler, ofNat_add_thirtyTwo, handlers_register_irqVector,
      HandlerCall.forLine]
    split <;> rfl
  | remove k =>
    rw [handlerStep, irqRemoveHandler, ofNat_add_thirtyTwo, handlers_register_irqVector,
      HandlerCall.forLine]
    split <;> rfl

/-- The handler table after a sequence of calls holds for each line the handler most recently
installed. -/
theorem handlers_runActions (link : KernelLink) (s : InterruptState H)
    (calls : List (HandlerCall H)) (n : Fin 16) :
    (runActions handlerStep calls (interruptsInit link s)).handlers (irqVector n) =
      mostRecent n calls := by
  induction calls using List.reverseRecOn with
  | nil => exact handlers_interruptsInit link s _
  | append_singleton calls a ih =>
    rw [runActions_append, runActions, runActions, handlers_handlerStep, ih, mostRecent, mostRecent,
      List.filterMap_append]
    cases ha : a.forLine n with
    | none => simp [ha]
    | some h => simp [ha]

/-- The calls leave the descriptor table alone. -/
lemma idt_runActions (calls : List (HandlerCall H)) (s : InterruptState H) :
    (runActions handlerStep calls s).idt = s.idt ∧
      (runActions handlerStep calls s).idtr = s.idtr := by
  induction calls generalizing s with
  | nil => exact ⟨rfl, rfl⟩
  | cons a calls ih =>
    have ha : (handlerStep a s).idt = s.idt ∧ (handlerStep a s).idtr = s.idtr := by
      cases a <;> exact ⟨rfl, rfl⟩
    rw [runActions, (ih _).1, (ih _).2]
    exact ha

/-! ## The path of an interrupt -/

/-- The controllers' view of an effect. -/
def InterruptEffect.onPics (p : PicPair) : InterruptEffect H → PicPair
  | .outb port value => p.outb port value
  | _ => p

/-- The interrupt controllers after `interrupts_init`. -/
def picsAfterInit (p : PicPair) : PicPair :=
  (interruptsInitEffects (H := Empty)).foldl InterruptEffect.onPics p

/-- The gate the processor reads for a vector: the descriptor table register has to point to the
table and to cover the entry. -/
def fetchGate (link : KernelLink) (s : InterruptState H) (v : BitVec 8) : Option IdtEntry :=
  if s.idtr.base = link.idt ∧ 8 * v.toNat + 7 ≤ s.idtr.limit.toNat then some (s.idt v) else none

def stubLabels : List StubLabel :=
  (List.finRange 20).map .isr ++ (List.finRange 16).map .irq ++
    [.isrCommon, .irqCommon, .interruptHandler]

/-- The label placed at an address. -/
def KernelLink.labelAt (link : KernelLink) (a : BitVec 32) : Option StubLabel :=
  stubLabels.find? fun l => link.entry l = a

/-- Delivery of the line `n` to a processor in the state `c`.  The C function reads its two
arguments above its return address; the result is what it does. -/
def deliverIrq (wide : Bool) (link : KernelLink) (pics : PicPair) (s : InterruptState H)
    (n : ℕ) (c : Cpu) : Option (List (InterruptEffect H)) := do
  let v ← pics.vector n
  let gate ← fetchGate link s v
  let entered ← c.takeInterrupt gate
  let label ← link.labelAt entered.eip
  let m ← Machine.runUntil wide (stubAssembly link) (· == .interruptHandler) 32 ⟨entered, label, 0⟩
  interruptHandler s (m.cpu.above 1) (m.cpu.above 2)

/-- What the delivery of the line `n` should do, given the handler of the line. -/
def expectedEffects (n : ℕ) : Option H → List (InterruptEffect H)
  | some h => [.callHandler h]
  | none => (if 8 ≤ n then [.outb 0xA0 0x20] else []) ++ [.outb 0x20 0x20]

/-! ## The layers agree on the vector -/

/-- Both controllers end initialised and unmasked, whatever state they were in. -/
lemma picsAfterInit_eq (p : PicPair) :
    picsAfterInit p = ⟨⟨.mask, 0x11, 0x20, 0x00⟩, ⟨.mask, 0x11, 0x28, 0x00⟩⟩ := by
  simp [picsAfterInit, interruptsInitEffects, picRemap, InterruptEffect.onPics, PicPair.outb,
    Pic.writeCommand, Pic.writeData, Pic.lastPhase]

/-- After `pic_remap` the controllers present the line `n` at the vector `32 + n`. -/
theorem vector_afterInit (p : PicPair) (n : Fin 16) :
    (picsAfterInit p).vector n = some (irqVector n) := by
  rw [picsAfterInit_eq]
  revert n
  decide

lemma labelAt_entry (link : KernelLink) (l : StubLabel) : link.labelAt (link.entry l) = some l := by
  have hmem : l ∈ stubLabels := by
    cases l <;> simp [stubLabels]
  obtain ⟨l', hl'⟩ : ∃ l', link.labelAt (link.entry l) = some l' := by
    rw [KernelLink.labelAt, ← Option.isSome_iff_exists, List.find?_isSome]
    exact ⟨l, hmem, decide_eq_true rfl⟩
  have hentry : link.entry l' = link.entry l := by
    simpa using List.find?_some hl'
  rw [hl', link.entry_injective hentry]

/-- The vector of a line leads through its gate to the stub of the line. -/
lemma fetchGate_irq (link : KernelLink) (s : InterruptState H) (calls : List (HandlerCall H))
    (n : Fin 16) :
    fetchGate link (runActions handlerStep calls (interruptsInit link s)) (irqVector n) =
      some (gateFor (link.entry (.irq n)) 0x08 0x8E) := by
  obtain ⟨hidt, hidtr⟩ := idt_runActions calls (interruptsInit link s)
  have hbase : (interruptsInit link s).idtr = ⟨BitVec.ofNat 16 (8 * 256 - 1), link.idt⟩ := rfl
  have hlimit : 8 * (irqVector n).toNat + 7 ≤ (BitVec.ofNat 16 (8 * 256 - 1)).toNat := by
    revert n
    decide
  rw [fetchGate, hidt, hidtr, hbase, if_pos ⟨rfl, hlimit⟩, irqVector, idt_interruptsInit_irq]

/-- The word the common tail pushes for `GS` when an interrupt arrives in the state `c`. -/
def gsWord (wide : Bool) (c : Cpu) : BitVec 32 := Cpu.segWord wide (c.below 17) (c.segs .gs)

/-- The interrupt number that `interrupt_handler` acts on is the word pushed for `GS`. -/
theorem deliverIrq_eq (wide : Bool) (link : KernelLink) (p : PicPair) (s : InterruptState H)
    (calls : List (HandlerCall H)) (n : Fin 16) (c : Cpu) :
    ∃ errorCode, deliverIrq wide link (picsAfterInit p)
        (runActions handlerStep calls (interruptsInit link s)) n c =
      interruptHandler (runActions handlerStep calls (interruptsInit link s)) (gsWord wide c)
        errorCode := by
  have hgate : (gateFor (link.entry (.irq n)) 0x08 0x8E).isInterruptGate = true := by
    rw [IdtEntry.isInterruptGate, gateFor]
    dsimp only
    decide
  obtain ⟨entered, hentered, hsegs, hbelow, heip⟩ := c.takeInterrupt_spec hgate
  have hlabel : link.labelAt entered.eip = some (.irq n) := by
    rw [heip, offset_gateFor, labelAt_entry]
  have hnumber : (irqEntry wide link n entered).above 1 = gsWord wide c := by
    rw [irqEntry_above_one, hbelow 14 (by norm_num) (by norm_num), hsegs, gsWord]
  refine ⟨(irqEntry wide link n entered).above 2, ?_⟩
  simp only [deliverIrq, vector_afterInit, fetchGate_irq, hentered, hlabel, runUntil_irq, hnumber,
    Option.bind_eq_bind, Option.bind_some]

/-! ## When the right handler runs -/

/-- The word `g`, taken for the interrupt number, leads to the handler of the line `n`: it indexes
an entry equal to the entry of the line; and if that is `NULL`, it is no exception number and on the
same controller as the line. -/
def SeesLine (s : InterruptState H) (n : Fin 16) (g : BitVec 32) : Prop :=
  g.toNat < 256 ∧ s.handlers (g.setWidth 8) = s.handlers (irqVector n) ∧
    (s.handlers (irqVector n) = none → 32 ≤ g.toNat ∧ (40 ≤ g.toNat ↔ 8 ≤ n.val))

lemma picSendEoi_eq_expectedEffects_iff {g : BitVec 32} (hg : g.toNat < 256) (hg' : 32 ≤ g.toNat)
    (n : ℕ) (h : Option H) :
    picSendEoi ((g - 32#32).setWidth 8) = expectedEffects n h ↔
      h = none ∧ (40 ≤ g.toNat ↔ 8 ≤ n) := by
  have hirq : ((g - 32#32).setWidth 8).toNat = g.toNat - 32 := by bv_omega
  have hle : 8 ≤ g.toNat - 32 ↔ 40 ≤ g.toNat := by omega
  rw [picSendEoi, hirq]
  cases h with
  | some h => split <;> simp [expectedEffects]
  | none =>
    simp only [hle]
    by_cases h1 : 40 ≤ g.toNat <;> by_cases h2 : 8 ≤ n <;> simp [expectedEffects, h1, h2]

/-- The exception branch writes to the terminal first, which no delivery of a line should do. -/
lemma exceptionBranch_ne_expectedEffects (message : Option String) (n : ℕ) (h : Option H) :
    message.map (fun m => [InterruptEffect.setcolor 12, .writestring "EXCEPTION: ", .writestring m,
      .writestring "\nSystem halted.", .cli, .hltLoop]) ≠ some (expectedEffects n h) := by
  cases message with
  | none => simp
  | some m => cases h with
    | some h => simp [expectedEffects]
    | none => by_cases hn : 8 ≤ n <;> simp [expectedEffects, hn]

/-- The outcome of `interrupt_handler` is the one wanted for the line `n` exactly when its argument
leads to the line. -/
theorem interruptHandler_eq_expected_iff (s : InterruptState H) (n : Fin 16)
    (g errorCode : BitVec 32) :
    interruptHandler s g errorCode = some (expectedEffects n (s.handlers (irqVector n))) ↔
      SeesLine s n g := by
  rw [SeesLine, interruptHandler]
  generalize hline : s.handlers (irqVector n) = line
  by_cases hg : g.toNat < 256
  · rw [if_pos hg]
    cases hentry : s.handlers (g.setWidth 8) with
    | some h =>
      cases line with
      | some h' => simp [expectedEffects, hg]
      | none => by_cases hn : 8 ≤ n.val <;> simp [expectedEffects, hn]
    | none =>
      by_cases hexc : g.toNat < 32
      · dsimp only
        rw [if_pos hexc]
        refine iff_of_false (exceptionBranch_ne_expectedEffects _ _ _) ?_
        rintro ⟨-, rfl, hnull⟩
        exact absurd (hnull rfl).1 (by omega)
      · dsimp only
        rw [if_neg hexc, Option.some.injEq, picSendEoi_eq_expectedEffects_iff hg (by omega)]
        constructor
        · rintro ⟨rfl, hpic⟩
          exact ⟨hg, rfl, fun _ => ⟨by omega, hpic⟩⟩
        · rintro ⟨-, rfl, hnull⟩
          exact ⟨rfl, (hnull rfl).2⟩
  · simp [hg]

/-- Delivering the line `n` runs the handler most recently installed for it, or acknowledges the
interrupt if there is none, exactly when the word pushed for `GS` happens to lead to the line. -/
theorem deliverIrq_iff_seesLine (wide : Bool) (link : KernelLink) (p : PicPair)
    (s : InterruptState H) (calls : List (HandlerCall H)) (n : Fin 16) (c : Cpu) :
    deliverIrq wide link (picsAfterInit p)
        (runActions handlerStep calls (interruptsInit link s)) n c =
      some (expectedEffects n (mostRecent n calls)) ↔
    SeesLine (runActions handlerStep calls (interruptsInit link s)) n (gsWord wide c) := by
  obtain ⟨errorCode, hdeliver⟩ := deliverIrq_eq wide link p s calls n c
  rw [hdeliver, ← handlers_runActions link s calls n, interruptHandler_eq_expected_iff]

/-! ## A timer interrupt in the running kernel -/

/-- The position of a label in the interrupt code. -/
def StubLabel.position : StubLabel → ℕ
  | .isr n => n
  | .irq n => 20 + n
  | .isrCommon => 36
  | .irqCommon => 37
  | .interruptHandler => 38

lemma stubLabels_position (l : StubLabel) : stubLabels[l.position]? = some l := by
  cases l with
  | isr n => revert n; decide
  | irq n => revert n; decide
  | isrCommon => rfl
  | irqCommon => rfl
  | interruptHandler => rfl

lemma StubLabel.position_lt (l : StubLabel) : l.position < 39 := by
  cases l <;> simp only [StubLabel.position] <;> omega

/-- The interrupt code in blocks of 64 bytes from `0x101000` on, the descriptor table at
`0x110000`. -/
def blockLink : KernelLink where
  address l i := BitVec.ofNat 32 (0x101000 + 64 * l.position + i)
  idt := 0x110000#32
  entry_injective := by
    intro l l' h
    have hpos : l.position = l'.position := by
      have := congrArg BitVec.toNat h
      have := l.position_lt
      have := l'.position_lt
      simp only [BitVec.toNat_ofNat] at *
      omega
    exact Option.some.inj (by rw [← stubLabels_position l, hpos, stubLabels_position l'])

/-- The kernel with its data segment selector `0x10` in every data segment register. -/
def kernelContext : Cpu where
  regs r := if r = .esp then 0x90000#32 else 0#32
  segs _ := 0x10#16
  cs := 0x08#16
  eip := 0x100000#32
  eflags := 0x202#32
  mem _ := 0#8

/-- The tables before anything is set up. -/
def blankTables : InterruptState Unit where
  idt _ := ⟨0, 0, 0, 0, 0⟩
  idtr := ⟨0, 0⟩
  handlers _ := none

/-- The controllers before anything is set up. -/
def blankPics : PicPair := ⟨⟨.mask, 0, 0, 0⟩, ⟨.mask, 0, 0, 0⟩⟩

/-- With no handler installed, a timer interrupt that arrives while `GS` holds the kernel's data
selector is taken for the exception 16 and halts the system; it should be acknowledged. -/
theorem deliverIrq_timer_halts :
    deliverIrq true blockLink (picsAfterInit blankPics)
        (runActions handlerStep [] (interruptsInit blockLink blankTables)) 0 kernelContext =
      some [.setcolor 12, .writestring "EXCEPTION: ", .writestring "x87 FPU Error",
        .writestring "\nSystem halted.", .cli, .hltLoop] ∧
    deliverIrq true blockLink (picsAfterInit blankPics)
        (runActions handlerStep [] (interruptsInit blockLink blankTables)) 0 kernelContext ≠
      some (expectedEffects 0 (mostRecent 0 ([] : List (HandlerCall Unit)))) := by
  obtain ⟨errorCode, hdeliver⟩ := deliverIrq_eq true blockLink blankPics blankTables [] 0
    kernelContext
  have hgs : gsWord true kernelContext = 0x10#32 := rfl
  have hline : (0 : Fin 16).val = 0 := rfl
  rw [hline, hgs, runActions, interruptHandler, handlers_interruptsInit] at hdeliver
  rw [runActions, hdeliver]
  exact ⟨rfl, by decide⟩

end VVBright
