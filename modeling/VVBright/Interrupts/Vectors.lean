import VVBright.Interrupts.Restore

/-!
# All vectors

`Interrupts.Dispatch` follows the sixteen lines of the controllers.  The other vectors are those of
the processor's exceptions, of `int` instructions and of interrupts nobody expects.
`interrupts_init` sets gates for the vectors 0 to 19 and 32 to 47 and leaves the others empty, and
for an empty gate the processor raises a general protection fault in place of the interrupt.

Through whichever stub control comes, and whether or not the processor has pushed an error code, the
number that `interrupt_handler` finds is the word pushed for `GS` (`respond_eq`).  So the exception
that the kernel reports is never the one that happened, unless its number is in `GS`
(`respond_reports_iff`).
-/

namespace VVBright

open Cpu

variable {H : Type}

/-! ## The exception branch -/

/-- The exception branch of `interrupt_handler`. -/
def exceptionEffects (message : String) : List (InterruptEffect H) :=
  [.setcolor 12, .writestring "EXCEPTION: ", .writestring message, .writestring "\nSystem halted.",
    .cli, .hltLoop]

/-- The message for an exception. -/
def exceptionMessage (k : ℕ) : String := exceptionMessages.getD k ""

/-- A number below 20 without a handler is reported as an exception. -/
lemma interruptHandler_exception {s : InterruptState H} {number : BitVec 32}
    (hnumber : number.toNat < 20) (hnone : s.handlers (number.setWidth 8) = none)
    (err : BitVec 32) :
    interruptHandler s number err = some (exceptionEffects (exceptionMessage number.toNat)) := by
  have hmessage : exceptionMessages[number.toNat]? = some (exceptionMessage number.toNat) := by
    have hlt : number.toNat < exceptionMessages.length := hnumber
    rw [exceptionMessage, List.getD_eq_getElem?_getD, List.getElem?_eq_getElem hlt,
      Option.getD_some]
  rw [interruptHandler, if_pos (by omega), hnone]
  dsimp only
  rw [if_pos (by omega), hmessage]
  rfl

/-- The messages are different. -/
lemma exceptionMessage_injective :
    ∀ k < 20, ∀ k' < 20, exceptionMessage k = exceptionMessage k' → k = k' := by
  decide

/-- What `interrupt_handler` reports is its argument. -/
lemma interruptHandler_reports_iff (s : InterruptState H) (number err : BitVec 32) (k : Fin 20) :
    interruptHandler s number err = some (exceptionEffects (exceptionMessage k)) ↔
      s.handlers (BitVec.ofNat 8 k) = none ∧ number.toNat = k := by
  constructor
  · intro h
    rw [interruptHandler] at h
    split at h
    · rename_i hlt
      cases hentry : s.handlers (number.setWidth 8) with
      | some handler =>
        rw [hentry] at h
        simp [exceptionEffects] at h
      | none =>
        rw [hentry] at h
        dsimp only at h
        split at h
        · -- the table has a message, which is that of `k` only at `k`
          obtain ⟨message, hmessage, heq⟩ := Option.map_eq_some_iff.mp h
          have hsame : message = exceptionMessage k := by
            simpa [exceptionEffects] using heq
          obtain ⟨hindex, -⟩ := List.getElem?_eq_some_iff.mp hmessage
          have hnumber : exceptionMessage number.toNat = message := by
            rw [exceptionMessage, List.getD_eq_getElem?_getD, hmessage, Option.getD_some]
          have hk := exceptionMessage_injective number.toNat hindex k k.isLt (hnumber.trans hsame)
          have hwidth : number.setWidth 8 = BitVec.ofNat 8 k := by
            rw [← hk]
            bv_omega
          exact ⟨hwidth ▸ hentry, hk⟩
        · rw [picSendEoi] at h
          split at h <;> simp [exceptionEffects] at h
    · exact absurd h.symm (Option.some_ne_none _)
  · rintro ⟨hnone, hk⟩
    have hwidth : number.setWidth 8 = BitVec.ofNat 8 k := by
      rw [← hk]
      bv_omega
    rw [interruptHandler_exception (by omega) (by rw [hwidth]; exact hnone), hk]

/-! ## The gates -/

/-- A family of stubs leaves the other gates alone. -/
lemma idt_setStubGates_of_ne {k base : ℕ} (stub : Fin k → BitVec 32) (s : InterruptState H)
    {v : BitVec 8} (hv : ∀ i : Fin k, v ≠ BitVec.ofNat 8 (base + i)) :
    (setStubGates base stub s).idt v = s.idt v := by
  rw [setStubGates]
  induction List.finRange k generalizing s with
  | nil => rfl
  | cons i l ih =>
    rw [List.foldl_cons, ih]
    exact Function.update_of_ne (hv i) _ _

/-- The loop of `interrupts_init` empties every gate. -/
lemma idt_cleared (s : InterruptState H) (v : BitVec 8) :
    ((List.range 256).foldl clearEntry s).idt v = gateFor 0 0 0 := by
  have hclear : ∀ (l : List ℕ) (s : InterruptState H),
      s.idt v = gateFor 0 0 0 ∨ v.toNat ∈ l → (l.foldl clearEntry s).idt v = gateFor 0 0 0 := by
    intro l
    induction l with
    | nil => exact fun s h => h.resolve_right List.not_mem_nil
    | cons i l ih =>
      intro s h
      refine ih _ ?_
      by_cases hv : v = BitVec.ofNat 8 i
      · left
        rw [hv]
        exact Function.update_self _ _ _
      · have hsame : (clearEntry s i).idt v = s.idt v := Function.update_of_ne hv _ _
        rw [hsame]
        refine h.imp_right fun hmem => (List.mem_cons.mp hmem).resolve_left fun hi => hv ?_
        rw [← hi, BitVec.ofNat_toNat, BitVec.setWidth_eq]
  exact hclear _ s (Or.inr (List.mem_range.mpr v.isLt))

/-- The stub a vector leads to. -/
def Stub.ofVector (v : BitVec 8) : Option Stub :=
  if h : v.toNat < 20 then some (.inl ⟨v.toNat, h⟩)
  else if h : 32 ≤ v.toNat ∧ v.toNat < 48 then some (.inr ⟨v.toNat - 32, by omega⟩)
  else none

/-- The gates after `interrupts_init`. -/
theorem idt_interruptsInit_eq (link : KernelLink) (s : InterruptState H) (v : BitVec 8) :
    (interruptsInit link s).idt v =
      match Stub.ofVector v with
      | some stub => gateFor (link.entry stub.label) 0x08 0x8E
      | none => gateFor 0 0 0 := by
  rw [interruptsInit]
  dsimp only
  rw [Stub.ofVector]
  by_cases hexc : v.toNat < 20
  · rw [dif_pos hexc, idt_setStubGates_of_ne]
    · have hv : v = BitVec.ofNat 8 (0 + (⟨v.toNat, hexc⟩ : Fin 20)) := by
        dsimp only
        bv_omega
      conv_lhs => rw [hv]
      rw [idt_setStubGates (by norm_num)]
      rfl
    · intro i
      have hi := i.isLt
      bv_omega
  · rw [dif_neg hexc]
    by_cases hirq : 32 ≤ v.toNat ∧ v.toNat < 48
    · rw [dif_pos hirq]
      have hv : v = BitVec.ofNat 8 (32 + (⟨v.toNat - 32, by omega⟩ : Fin 16)) := by
        dsimp only
        bv_omega
      conv_lhs => rw [hv]
      rw [idt_setStubGates (by norm_num)]
      rfl
    · rw [dif_neg hirq, idt_setStubGates_of_ne, idt_setStubGates_of_ne, idt_cleared]
      · intro i
        have hi := i.isLt
        bv_omega
      · intro i
        have hi := i.isLt
        bv_omega

/-- The gates of the stubs are interrupt gates. -/
lemma isInterruptGate_gateFor (base : BitVec 32) :
    (gateFor base 0x08 0x8E).isInterruptGate = true := by
  rw [IdtEntry.isInterruptGate, gateFor]
  dsimp only
  decide

/-! ## From a vector to the C function -/

/-- The stub pushes its words. -/
def Stub.pushes : Stub → Cpu → Cpu
  | .inl n, c =>
    if n.val ∈ isrErrNumbers then c.push (BitVec.ofNat 32 n)
    else (c.push 0#32).push (BitVec.ofNat 32 n)
  | .inr n, c => (c.push 0#32).push (BitVec.ofNat 32 n)

/-- Every stub reaches `interrupt_handler`. -/
lemma runUntil_stub (wide : Bool) (link : KernelLink) (stub : Stub) (c : Cpu) :
    Machine.runUntil wide (stubAssembly link) (· == .interruptHandler) 32 ⟨c, stub.label, 0⟩ =
      some ⟨handlerEntry wide link stub.tail (stub.pushes c), .interruptHandler, 0⟩ := by
  cases stub with
  | inl n => fin_cases n <;> rfl
  | inr n => rfl

lemma segs_pushes (stub : Stub) (c : Cpu) : (stub.pushes c).segs = c.segs := by
  cases stub with
  | inl n =>
    rw [Stub.pushes]
    split <;> rfl
  | inr n => rfl

/-- The first argument of the C function is the word pushed for `GS`. -/
lemma handlerEntry_above_one (wide : Bool) (link : KernelLink) (l : StubLabel) (c : Cpu) :
    ∃ old, (handlerEntry wide link l c).above 1 = segWord wide old (c.segs .gs) := by
  rw [handlerEntry, above_push_succ _ _ (k := 0) (by norm_num), above_loadSegments, saveContext,
    saveSegs, above_pushSeg_zero]
  exact ⟨_, rfl⟩

/-- The processor goes through a gate, with or without an error code, and the code there calls
`interrupt_handler`. -/
def enterGate (wide : Bool) (link : KernelLink) (s : InterruptState H) (gate : IdtEntry)
    (errorCode : Option (BitVec 32)) (c : Cpu) : Option (List (InterruptEffect H)) := do
  let frame ← c.takeInterrupt gate
  let entered := errorCode.elim frame frame.push
  let label ← link.labelAt entered.eip
  let m ← Machine.runUntil wide (stubAssembly link) (· == .interruptHandler) 32 ⟨entered, label, 0⟩
  interruptHandler s (m.cpu.above 1) (m.cpu.above 2)

/-- The response to a vector.  An empty gate raises a general protection fault, whose error code
names the vector; `external` says that the event came from outside the program. -/
def respond (wide : Bool) (link : KernelLink) (s : InterruptState H) (v : BitVec 8)
    (errorCode : Option (BitVec 32)) (external : Bool) (c : Cpu) :
    Option (List (InterruptEffect H)) := do
  let gate ← fetchGate link s v
  if gate.isInterruptGate then enterGate wide link s gate errorCode c
  else
    let fault ← fetchGate link s 13#8
    enterGate wide link s fault
      (some (BitVec.ofNat 32 (8 * v.toNat + 2 + if external then 1 else 0))) c

section

variable (wide : Bool) (link : KernelLink) (s : InterruptState H)

lemma enterGate_stub (stub : Stub) (errorCode : Option (BitVec 32)) (c : Cpu) :
    ∃ old, enterGate wide link s (gateFor (link.entry stub.label) 0x08 0x8E) errorCode c =
      interruptHandler s (segWord wide old (c.segs .gs)) 0 := by
  obtain ⟨frame, hframe, hsegs, -, heip⟩ :=
    c.takeInterrupt_spec (isInterruptGate_gateFor (link.entry stub.label))
  have heip' : (errorCode.elim frame frame.push).eip = link.entry stub.label := by
    rw [← offset_gateFor (link.entry stub.label) 0x08 0x8E, ← heip]
    cases errorCode <;> rfl
  have hsegs' : (stub.pushes (errorCode.elim frame frame.push)).segs = c.segs := by
    rw [segs_pushes, ← hsegs]
    cases errorCode <;> rfl
  obtain ⟨old, hnumber⟩ := handlerEntry_above_one wide link stub.tail
    (stub.pushes (errorCode.elim frame frame.push))
  rw [hsegs'] at hnumber
  refine ⟨old, ?_⟩
  rw [enterGate, hframe]
  simp only [Option.bind_eq_bind, Option.bind_some, heip', labelAt_entry, runUntil_stub, hnumber]
  rfl

/-- After `interrupts_init` and any registrations of handlers, the response to every vector is that
of `interrupt_handler` to the word pushed for `GS`. -/
theorem respond_eq (calls : List (HandlerCall H)) (v : BitVec 8) (errorCode : Option (BitVec 32))
    (external : Bool) (c : Cpu) :
    ∃ old, respond wide link (runActions handlerStep calls (interruptsInit link s)) v errorCode
        external c =
      interruptHandler (runActions handlerStep calls (interruptsInit link s))
        (segWord wide old (c.segs .gs)) 0 := by
  obtain ⟨hidt, hidtr⟩ := idt_runActions calls (interruptsInit link s)
  have hbase : (interruptsInit link s).idtr = ⟨BitVec.ofNat 16 (8 * 256 - 1), link.idt⟩ := rfl
  generalize hs' : runActions handlerStep calls (interruptsInit link s) = s' at hidt hidtr
  have hfetch : ∀ v, fetchGate link s' v = some ((interruptsInit link s).idt v) := by
    intro v
    have hv := v.isLt
    rw [fetchGate, hidt, hidtr, hbase, if_pos]
    refine ⟨rfl, ?_⟩
    rw [BitVec.toNat_ofNat]
    omega
  rw [respond, hfetch, Option.bind_eq_bind, Option.bind_some, idt_interruptsInit_eq]
  cases hstub : Stub.ofVector v with
  | some stub =>
    dsimp only
    rw [if_pos (isInterruptGate_gateFor _)]
    exact enterGate_stub wide link s' stub errorCode c
  | none =>
    have hgate : (gateFor 0 0 0).isInterruptGate = false := by decide
    have hfault : (interruptsInit link s).idt 13#8 =
        gateFor (link.entry (Stub.label (.inl 13))) 0x08 0x8E := by
      rw [idt_interruptsInit_eq]
      rfl
    dsimp only
    rw [hgate, if_neg Bool.false_ne_true, hfetch, Option.bind_some, hfault]
    exact enterGate_stub wide link s' (.inl 13) _ c

end

/-- **What the kernel reports is `GS`.**  After `interrupts_init` and any registrations of handlers,
take any of the 256 vectors, whether it comes from the processor, from a device or from an `int`
instruction and with or without an error code, on a processor that pushes segment registers
zero-extended.  The kernel reports the exception `k` exactly when `k` is the selector in `GS` and no
handler is registered for `k`: which vector it was does not matter. -/
theorem respond_reports_iff (link : KernelLink) (s : InterruptState H)
    (calls : List (HandlerCall H)) (v : BitVec 8) (errorCode : Option (BitVec 32)) (external : Bool)
    (c : Cpu) (k : Fin 20) :
    respond true link (runActions handlerStep calls (interruptsInit link s)) v errorCode external
        c = some (exceptionEffects (exceptionMessage k)) ↔
      (runActions handlerStep calls (interruptsInit link s)).handlers (BitVec.ofNat 8 k) = none ∧
        (c.segs .gs).toNat = k := by
  obtain ⟨old, hrespond⟩ := respond_eq true link s calls v errorCode external c
  have hword : (segWord true old (c.segs .gs)).toNat = (c.segs .gs).toNat := by
    have hlt := (c.segs .gs).isLt
    rw [segWord, if_pos rfl, BitVec.toNat_setWidth]
    omega
  rw [hrespond, interruptHandler_reports_iff, hword]

end VVBright
