import VVBright.Hardware.Pic

/-!
# Requests and service in the interrupt controllers

`Hardware.Pic` has the part of a controller that the initialisation words set.  Here each controller
gets its two registers of lines: a device sets a bit of the request register, and when the processor
acknowledges an interrupt the bit of the line moves to the in-service register, where it blocks this
line and the lines after it until an end-of-interrupt command clears it.  Line 0 comes first.

The master sees the slave as its line 2, which is requested as long as the slave has a line to
offer.  A request can be withdrawn before it is acknowledged; the controller then answers with its
last line and puts nothing into service, and the slave may do so when the master has already put
line 2 into service.
-/

namespace VVBright

/-- A controller with its request and in-service registers. -/
structure PicLines where
  pic : Pic
  irr : Finset (Fin 8)
  isr : Finset (Fin 8)

/-- The line of highest priority in a register. -/
def highest (lines : Finset (Fin 8)) : Option (Fin 8) := (List.finRange 8).find? fun n => n ∈ lines

namespace PicLines

/-- The requested lines that may interrupt: not masked, and before every line in service. -/
def eligible (p : PicLines) : Finset (Fin 8) :=
  p.irr.filter fun n => p.pic.vector n ≠ none ∧ ∀ m ∈ p.isr, n < m

/-- The line the controller interrupts for. -/
def winner (p : PicLines) : Option (Fin 8) := highest p.eligible

/-- The line is acknowledged. -/
def serve (n : Fin 8) (p : PicLines) : PicLines :=
  { p with irr := p.irr.erase n, isr := insert n p.isr }

/-- The non-specific end-of-interrupt command. -/
def endOfInterrupt (p : PicLines) : PicLines :=
  match highest p.isr with
  | some n => { p with isr := p.isr.erase n }
  | none => p

/-- A byte at the command port: an initialisation, an end of interrupt, or a command that leaves the
lines alone. -/
def writeCommand (v : BitVec 8) (p : PicLines) : PicLines :=
  if v.getLsbD 4 then ⟨p.pic.writeCommand v, ∅, ∅⟩
  else if v &&& 0xF8#8 = 0x20#8 then p.endOfInterrupt
  else p

def writeData (v : BitVec 8) (p : PicLines) : PicLines := { p with pic := p.pic.writeData v }

end PicLines

/-- The two controllers. -/
structure PicLinesPair where
  master : PicLines
  slave : PicLines

namespace PicLinesPair

/-- The programming of the two controllers. -/
def toPair (p : PicLinesPair) : PicPair := ⟨p.master.pic, p.slave.pic⟩

/-- A byte written to an I/O port. -/
def outb (port : BitVec 16) (v : BitVec 8) (p : PicLinesPair) : PicLinesPair :=
  if port = 0x20#16 then { p with master := p.master.writeCommand v }
  else if port = 0x21#16 then { p with master := p.master.writeData v }
  else if port = 0xA0#16 then { p with slave := p.slave.writeCommand v }
  else if port = 0xA1#16 then { p with slave := p.slave.writeData v }
  else p

/-- A sequence of port writes. -/
def outbs (writes : List (BitVec 16 × BitVec 8)) (p : PicLinesPair) : PicLinesPair :=
  writes.foldl (fun p w => p.outb w.1 w.2) p

/-- A device requests the line `n` of the master. -/
def requestMaster (n : Fin 8) (p : PicLinesPair) : PicLinesPair :=
  { p with master := { p.master with irr := insert n p.master.irr } }

/-- The keyboard is wired to line 1 of the master. -/
def requestKeyboard (p : PicLinesPair) : PicLinesPair := p.requestMaster 1

/-- A device requests the line `n` of the slave. -/
def requestSlave (n : Fin 8) (p : PicLinesPair) : PicLinesPair :=
  { p with slave := { p.slave with irr := insert n p.slave.irr } }

/-- A device withdraws its request for the line `n` of the master. -/
def withdrawMaster (n : Fin 8) (p : PicLinesPair) : PicLinesPair :=
  { p with master := { p.master with irr := p.master.irr.erase n } }

/-- A device withdraws its request for the line `n` of the slave. -/
def withdrawSlave (n : Fin 8) (p : PicLinesPair) : PicLinesPair :=
  { p with slave := { p.slave with irr := p.slave.irr.erase n } }

/-- The line the master interrupts for; line 2 is requested while the slave has a line to offer. -/
def winner (p : PicLinesPair) : Option (Fin 8) :=
  { p.master with
    irr := if p.slave.winner.isSome then insert 2 p.master.irr else p.master.irr }.winner

/-- The slave answers for line 2 of the master.  If its request is gone by then, `late`, it answers
with its last line. -/
def acknowledgeSlave (late : Bool) (p : PicLinesPair) : PicLinesPair × BitVec 8 :=
  match if late then none else p.slave.winner with
  | none => ({ p with master := p.master.serve 2 }, p.slave.pic.base + 7)
  | some k => (⟨p.master.serve 2, p.slave.serve k⟩, p.slave.pic.base + BitVec.ofNat 8 k)

/-- The processor acknowledges an interrupt and is given a vector. -/
def acknowledge (late : Bool) (p : PicLinesPair) : PicLinesPair × BitVec 8 :=
  match p.winner with
  | none => (p, p.master.pic.base + 7)
  | some n =>
    if n = 2 then p.acknowledgeSlave late
    else ({ p with master := p.master.serve n }, p.master.pic.base + BitVec.ofNat 8 n)

end PicLinesPair

/-! ## Registers -/

lemma highest_empty : highest ∅ = none := rfl

lemma highest_singleton (n : Fin 8) : highest {n} = some n := by
  revert n
  decide

/-- A register has a first line exactly when it is not empty. -/
lemma highest_eq_none_iff {lines : Finset (Fin 8)} : highest lines = none ↔ lines = ∅ := by
  rw [highest, List.find?_eq_none, Finset.eq_empty_iff_forall_notMem]
  simp

lemma mem_of_highest {lines : Finset (Fin 8)} {n : Fin 8} (h : highest lines = some n) :
    n ∈ lines := by
  simpa using List.find?_some h

namespace PicLines

variable {p : PicLines}

/-- Whatever is in service alone is cleared by one command. -/
lemma isr_endOfInterrupt_of_subset {n : Fin 8} (h : p.isr ⊆ {n}) : p.endOfInterrupt.isr = ∅ := by
  rcases Finset.subset_singleton_iff.mp h with h | h
  · rw [endOfInterrupt, h, highest_empty]
    exact h
  · rw [endOfInterrupt, h, highest_singleton]
    simp

/-- The command `0x20` is an end of interrupt. -/
lemma writeCommand_eoi (p : PicLines) : p.writeCommand 0x20#8 = p.endOfInterrupt := by
  rw [writeCommand, if_neg (by decide), if_pos (by decide)]

/-- The in-service register after a command depends on that register only. -/
lemma isr_writeCommand_congr {q : PicLines} (h : p.isr = q.isr) (v : BitVec 8) :
    (p.writeCommand v).isr = (q.writeCommand v).isr := by
  rw [writeCommand, writeCommand]
  split
  · rfl
  · split
    · rw [endOfInterrupt, endOfInterrupt, h]
      split
      · rfl
      · exact h
    · exact h

/-- End-of-interrupt commands change neither the programming nor the requests. -/
lemma endOfInterrupt_pic (p : PicLines) :
    p.endOfInterrupt.pic = p.pic ∧ p.endOfInterrupt.irr = p.irr := by
  rw [endOfInterrupt]
  split <;> exact ⟨rfl, rfl⟩

/-- With nothing in service and no mask, any requested line can interrupt. -/
lemma eligible_eq (hvector : ∀ n : Fin 8, p.pic.vector n ≠ none) (hisr : p.isr = ∅) :
    p.eligible = p.irr := by
  rw [eligible, hisr]
  simp [hvector]

end PicLines

namespace PicLinesPair

variable {p q : PicLinesPair}

/-- The programming of the controllers changes as described in `Hardware.Pic`. -/
lemma toPair_outb (port : BitVec 16) (v : BitVec 8) (p : PicLinesPair) :
    (p.outb port v).toPair = p.toPair.outb port v := by
  have hcommand : ∀ l : PicLines, (l.writeCommand v).pic = l.pic.writeCommand v := by
    intro l
    by_cases hbit : v.getLsbD 4 = true
    · rw [PicLines.writeCommand, if_pos hbit]
    · rw [PicLines.writeCommand, Pic.writeCommand, if_neg hbit, if_neg hbit]
      split
      · exact l.endOfInterrupt_pic.1
      · rfl
  rw [outb, PicPair.outb]
  split_ifs <;> simp only [toPair, hcommand, PicLines.writeData]

lemma toPair_outbs (writes : List (BitVec 16 × BitVec 8)) (p : PicLinesPair) :
    (p.outbs writes).toPair = writes.foldl (fun p w => p.outb w.1 w.2) p.toPair := by
  induction writes generalizing p with
  | nil => rfl
  | cons w writes ih =>
    rw [outbs, List.foldl_cons, List.foldl_cons, ← toPair_outb]
    exact ih _

/-- The two controllers have the same lines in service. -/
def SameService (p q : PicLinesPair) : Prop :=
  p.master.isr = q.master.isr ∧ p.slave.isr = q.slave.isr

/-- Nothing is in service. -/
def Idle (p : PicLinesPair) : Prop := p.master.isr = ∅ ∧ p.slave.isr = ∅

/-- With nothing in service and no mask, the slave offers its first requested line, and the master
the first of its requested lines and line 2 if the slave has one. -/
lemma winner_of_idle (hmaster : ∀ n : Fin 8, p.master.pic.vector n ≠ none)
    (hslave : ∀ n : Fin 8, p.slave.pic.vector n ≠ none) (h : p.Idle) :
    p.slave.winner = highest p.slave.irr ∧
      p.winner = highest (if p.slave.irr = ∅ then p.master.irr else insert 2 p.master.irr) := by
  have hoffer : p.slave.winner = highest p.slave.irr := by
    rw [PicLines.winner, PicLines.eligible_eq hslave h.2]
  refine ⟨hoffer, ?_⟩
  have heligible : ∀ irr, PicLines.eligible { p.master with irr := irr } = irr :=
    fun irr => PicLines.eligible_eq (p := { p.master with irr := irr }) hmaster h.1
  rw [winner, PicLines.winner, heligible, hoffer]
  by_cases hempty : p.slave.irr = ∅
  · rw [if_pos hempty, hempty]
    rfl
  · have hsome : (highest p.slave.irr).isSome = true := by
      rw [Option.isSome_iff_ne_none, ne_eq, highest_eq_none_iff]
      exact hempty
    rw [if_neg hempty, if_pos hsome]

lemma SameService.outb (h : SameService p q) (port : BitVec 16) (v : BitVec 8) :
    SameService (p.outb port v) (q.outb port v) := by
  rw [PicLinesPair.outb, PicLinesPair.outb]
  split_ifs
  · exact ⟨PicLines.isr_writeCommand_congr h.1 v, h.2⟩
  · exact h
  · exact ⟨h.1, PicLines.isr_writeCommand_congr h.2 v⟩
  · exact h
  · exact h

/-- What port writes do to the lines in service does not depend on the requests. -/
lemma SameService.outbs (h : SameService p q) (writes : List (BitVec 16 × BitVec 8)) :
    SameService (p.outbs writes) (q.outbs writes) := by
  induction writes generalizing p q with
  | nil => exact h
  | cons w writes ih => exact ih (h.outb w.1 w.2)

end PicLinesPair

end VVBright
