import Mathlib.Tactic

/-!
# The cascaded pair of 8259 interrupt controllers

A controller is programmed through a command and a data port.  A command with bit 4 set (ICW1)
starts an initialisation sequence: the next data byte is the vector base (ICW2), then follow the
cascade word (ICW3) unless the controller stands alone, and the mode word (ICW4) if ICW1 announced
one.  Outside such a sequence a data byte is the interrupt mask.

`PicPair.vector` is the vector the pair presents for an interrupt line: lines 0 to 7 belong to the
master, lines 8 to 15 to the slave behind the master's line 2.
-/

namespace VVBright

/-- What the next byte at the data port means. -/
inductive PicPhase
  | mask | icw2 | icw3 | icw4
  deriving DecidableEq

structure Pic where
  phase : PicPhase
  icw1 : BitVec 8
  base : BitVec 8
  imr : BitVec 8
  deriving DecidableEq

namespace Pic

/-- A byte at the command port.  The operation commands, end-of-interrupt among them, change
neither the vector base nor the mask. -/
def writeCommand (v : BitVec 8) (p : Pic) : Pic :=
  if v.getLsbD 4 then { p with phase := .icw2, icw1 := v, imr := 0#8 } else p

/-- The phase after ICW2 and ICW3: the mode word follows if bit 0 of ICW1 asked for it. -/
def lastPhase (p : Pic) : PicPhase := if p.icw1.getLsbD 0 then .icw4 else .mask

/-- A byte at the data port. -/
def writeData (v : BitVec 8) (p : Pic) : Pic :=
  match p.phase with
  | .mask => { p with imr := v }
  | .icw2 =>
      { p with base := v &&& 0xF8#8, phase := if p.icw1.getLsbD 1 then p.lastPhase else .icw3 }
  | .icw3 => { p with phase := p.lastPhase }
  | .icw4 => { p with phase := .mask }

/-- The vector for the controller's own line `n`, if the controller is initialised and the line is
not masked. -/
def vector (n : ℕ) (p : Pic) : Option (BitVec 8) :=
  if p.phase = .mask ∧ p.imr.getLsbD n = false then some (p.base + BitVec.ofNat 8 n) else none

end Pic

structure PicPair where
  master : Pic
  slave : Pic
  deriving DecidableEq

namespace PicPair

/-- A byte written to an I/O port. -/
def outb (port : BitVec 16) (v : BitVec 8) (p : PicPair) : PicPair :=
  if port = 0x20#16 then { p with master := p.master.writeCommand v }
  else if port = 0x21#16 then { p with master := p.master.writeData v }
  else if port = 0xA0#16 then { p with slave := p.slave.writeCommand v }
  else if port = 0xA1#16 then { p with slave := p.slave.writeData v }
  else p

/-- The vector presented for the line `n`. -/
def vector (n : ℕ) (p : PicPair) : Option (BitVec 8) :=
  if n < 8 then p.master.vector n
  else if p.master.vector 2 = none then none
  else p.slave.vector (n - 8)

end PicPair

end VVBright
