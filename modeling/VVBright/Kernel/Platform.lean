import VVBright.Hardware.PicService
import VVBright.Interrupts.Dispatch
import VVBright.Keyboard.Layout
import VVBright.Terminal.Scroll

/-!
# The kernel among its devices

The parts put together: the two interrupt controllers with devices on their lines, the keyboard with
its controller, `interrupt_handler`, `keyboard_handler` and the terminal.  Devices act at any time.
The gates of the descriptor table are interrupt gates, so the processor accepts no interrupt while a
handler runs; but requests arrive between any two of its port accesses.  What is left to do of the
running handler is therefore part of the state (`Todo`), and a handler is performed one effect at a
time.

Which number `interrupt_handler` is called with is decided by the assembly code before it, of which
the platform takes an abstract view (`EntryCode`): the code is given the vector and the interrupted
context.  `stubEntry` is what the stubs do: they pass the word pushed for `GS`.

The result of this module is about runs in which `interrupt_handler` is called with the vector, as
it expects (`PassesVector`); with the stubs this means that the interrupted program has the vector
in `GS`.  Whatever the devices do, the commands that the handlers send keep up with the lines the
controllers put into service: whenever no handler runs, nothing is in service, and no line stays
blocked (`ServiceInv.eligible`).
-/

namespace VVBright

open Traced

/-! ## The platform -/

/-- The handlers of the kernel. -/
inductive KernelHandler where
  | keyboardHandler
  deriving DecidableEq

/-- What is left to do of a running handler. -/
inductive Todo where
  /-- An effect of `interrupt_handler`. -/
  | interrupt (e : InterruptEffect KernelHandler)
  /-- `keyboard_handler`, from its `inb` on. -/
  | readKeyboard
  /-- An effect of `keyboard_handler`. -/
  | driver (e : KernelEffect)
  /-- The return from the interrupt. -/
  | iret
  /-- `interrupt_handler` has read outside its tables; nothing is known of what follows. -/
  | stray

structure Platform where
  pics : PicLinesPair
  tables : InterruptState KernelHandler
  keyboard : KeyboardState
  terminal : TerminalState
  /-- The bytes the keyboard has not handed to its controller yet. -/
  queue : List (BitVec 8)
  /-- The byte a read of port `0x60` returns. -/
  data : BitVec 8
  /-- The byte has not been read. -/
  full : Bool
  todo : List Todo

/-- A device other than the keyboard, on a line of its own.  Line 1 of the master belongs to the
keyboard, line 2 to the slave. -/
inductive Device where
  | master (n : Fin 8) (own : n.val ≠ 1 ∧ n.val ≠ 2)
  | slave (n : Fin 8)

def Device.request : Device → PicLinesPair → PicLinesPair
  | .master n _ => PicLinesPair.requestMaster n
  | .slave n => PicLinesPair.requestSlave n

def Device.withdraw : Device → PicLinesPair → PicLinesPair
  | .master n _ => PicLinesPair.withdrawMaster n
  | .slave n => PicLinesPair.withdrawSlave n

inductive PlatformEvent where
  /-- The keyboard sends a byte. -/
  | key (byte : BitVec 8)
  /-- The controller of the keyboard takes the next byte, if the last one has been read. -/
  | load
  | request (device : Device)
  | withdraw (device : Device)
  /-- The processor, in the context `c`, accepts an interrupt. -/
  | acknowledge (late : Bool) (c : Cpu)
  /-- The running handler goes on by one effect. -/
  | execute

/-- The number handed to `interrupt_handler` for a vector and an interrupted context. -/
abbrev EntryCode := BitVec 8 → Cpu → BitVec 32

/-- The number is the one the stubs pass, by `deliverIrq_eq`. -/
def stubEntry (wide : Bool) : EntryCode := fun _ c => gsWord wide c

namespace Platform

/-- What `interrupt_handler` does when it is called with a number. -/
def enterHandler (number : BitVec 32) (P : Platform) : List Todo :=
  match interruptHandler P.tables number 0 with
  | some effects => effects.map .interrupt ++ [.iret]
  | none => [.stray]

/-- The running handler goes on by one effect. -/
def execute (P : Platform) : Platform :=
  match P.todo with
  | [] => P
  | .interrupt (.callHandler .keyboardHandler) :: rest => { P with todo := .readKeyboard :: rest }
  | .interrupt (.setcolor color) :: rest =>
    { P with todo := rest, terminal := (terminalSetcolor (color.setWidth 32)).exec P.terminal }
  | .interrupt (.writestring text) :: rest =>
    { P with todo := rest, terminal := (terminalWritestring (messageBytes text)).exec P.terminal }
  | .interrupt (.outb port value) :: rest =>
    { P with todo := rest, pics := P.pics.outb port value }
  | .interrupt .cli :: rest => { P with todo := rest }
  | .interrupt .hltLoop :: _ => P
  | .readKeyboard :: rest =>
    { P with
      keyboard := (VVBright.keyboardHandler P.data P.keyboard).1
      full := false
      todo := (VVBright.keyboardHandler P.data P.keyboard).2.map .driver ++ rest }
  | .driver (.putchar c) :: rest =>
    { P with todo := rest, terminal := (terminalPutchar c).exec P.terminal }
  | .driver (.outb port value) :: rest => { P with todo := rest, pics := P.pics.outb port value }
  | .driver (.writestring text) :: rest =>
    { P with todo := rest, terminal := (terminalWritestring (messageBytes text)).exec P.terminal }
  | .driver (.irqInstallHandler irq) :: rest =>
    { P with todo := rest, tables := irqInstallHandler irq (some .keyboardHandler) P.tables }
  | .iret :: rest => { P with todo := rest }
  | .stray :: _ => P

/-- The controller of the keyboard takes the next byte and requests line 1. -/
def load (P : Platform) : Platform :=
  match P.queue with
  | [] => P
  | byte :: rest =>
    if P.full then P
    else { P with queue := rest, data := byte, full := true, pics := P.pics.requestKeyboard }

/-- The processor accepts an interrupt, unless a handler is running. -/
def acknowledge (entry : EntryCode) (late : Bool) (c : Cpu) (P : Platform) : Platform :=
  match P.todo with
  | [] =>
    { P with
      pics := (P.pics.acknowledge late).1
      todo := P.enterHandler (entry (P.pics.acknowledge late).2 c) }
  | _ => P

def step (entry : EntryCode) : PlatformEvent → Platform → Platform
  | .key byte, P => { P with queue := P.queue ++ [byte] }
  | .load, P => P.load
  | .request device, P => { P with pics := device.request P.pics }
  | .withdraw device, P => { P with pics := device.withdraw P.pics }
  | .acknowledge late c, P => P.acknowledge entry late c
  | .execute, P => P.execute

/-- The platform after `interrupts_init` and `keyboard_init`, with an empty keyboard; `terminal` is
the screen as the messages of the two functions have left it. -/
def boot (link : KernelLink) (pics : PicLinesPair) (tables : InterruptState KernelHandler)
    (keyboard : KeyboardState) (terminal : TerminalState) (data : BitVec 8) : Platform where
  pics := pics.outbs picRemap
  tables := irqInstallHandler 1#8 (some .keyboardHandler) (interruptsInit link tables)
  keyboard := (keyboardInit keyboard).1
  terminal := terminal
  queue := []
  data := data
  full := false
  todo := []

end Platform

/-- If `interrupt_handler` is called in this event, it is called with the vector. -/
def PassesVector (entry : EntryCode) : PlatformEvent → Platform → Prop
  | .acknowledge late c, P => P.todo = [] →
      entry (P.pics.acknowledge late).2 c = (P.pics.acknowledge late).2.setWidth 32
  | _, _ => True

/-! ## What is left to do -/

/-- The port writes that are left to do. -/
def Todo.writes : Todo → List (BitVec 16 × BitVec 8)
  | .interrupt (.outb port value) => [(port, value)]
  | .interrupt (.callHandler .keyboardHandler) => [(0x20, 0x20)]
  | .readKeyboard => [(0x20, 0x20)]
  | .driver (.outb port value) => [(port, value)]
  | _ => []

/-- The port write is an end of interrupt. -/
def IsEoi (port : BitVec 16) (value : BitVec 8) : Prop :=
  (port = 0x20#16 ∨ port = 0xA0#16) ∧ value = 0x20#8

/-- What the handlers of interrupt lines consist of. -/
def Todo.Ordinary : Todo → Prop
  | .interrupt (.outb port value) => IsEoi port value
  | .interrupt (.callHandler _) => True
  | .readKeyboard => True
  | .driver (.putchar _) => True
  | .driver (.outb port value) => IsEoi port value
  | .iret => True
  | _ => False

/-- `keyboard_handler` prints what it prints, then sends one end of interrupt. -/
lemma keyboardHandler_effects (b : BitVec 8) (k : KeyboardState) :
    (keyboardHandler b k).2 = (handlerChars b k).map .putchar ++ [.outb 0x20#16 0x20#8] := by
  have hpress : (handlePress b k).2 =
      ((handlePress b k).2.filterMap KernelEffect.char?).map .putchar := by
    rw [handlePress]
    split_ifs <;> first | rfl | (dsimp only; split <;> rfl)
  by_cases hhigh : b &&& 0x80#8 ≠ 0#8
  · rw [handlerChars, keyboardHandler, if_pos hhigh]
    rfl
  · rw [handlerChars, keyboardHandler, if_neg hhigh]
    dsimp only
    rw [List.filterMap_append, List.map_append, ← hpress]
    exact congrArg (· ++ _) (List.append_nil _).symm

/-- What one effect of the handler of an interrupt line can be. -/
lemma Platform.execute_cases {P : Platform} (h : ∀ t ∈ P.todo, t.Ordinary) :
    (P.todo = [] ∧ P.execute = P) ∨
    (∃ rest, P.todo = .interrupt (.callHandler .keyboardHandler) :: rest ∧
      P.execute = { P with todo := .readKeyboard :: rest }) ∨
    (∃ rest, P.todo = .readKeyboard :: rest ∧ P.execute =
      { P with
        keyboard := (VVBright.keyboardHandler P.data P.keyboard).1
        full := false
        todo := (VVBright.keyboardHandler P.data P.keyboard).2.map .driver ++ rest }) ∨
    (∃ c rest, P.todo = .driver (.putchar c) :: rest ∧ P.execute =
      { P with todo := rest, terminal := (terminalPutchar c).exec P.terminal }) ∨
    (∃ port value rest, IsEoi port value ∧
      (P.todo = .interrupt (.outb port value) :: rest ∨
        P.todo = .driver (.outb port value) :: rest) ∧
      P.execute = { P with todo := rest, pics := P.pics.outb port value }) ∨
    (∃ rest, P.todo = .iret :: rest ∧ P.execute = { P with todo := rest }) := by
  cases htodo : P.todo with
  | nil =>
    refine Or.inl ⟨rfl, ?_⟩
    rw [Platform.execute, htodo]
  | cons t rest =>
    rw [htodo] at h
    have ht := h t List.mem_cons_self
    rw [Platform.execute, htodo]
    cases t with
    | interrupt e =>
      cases e with
      | callHandler k =>
        cases k
        exact Or.inr (Or.inl ⟨rest, rfl, rfl⟩)
      | outb port value =>
        exact Or.inr (Or.inr (Or.inr (Or.inr (Or.inl
          ⟨port, value, rest, ht, Or.inl rfl, rfl⟩))))
      | setcolor _ => exact ht.elim
      | writestring _ => exact ht.elim
      | cli => exact ht.elim
      | hltLoop => exact ht.elim
    | readKeyboard => exact Or.inr (Or.inr (Or.inl ⟨rest, rfl, rfl⟩))
    | driver e =>
      cases e with
      | putchar c => exact Or.inr (Or.inr (Or.inr (Or.inl ⟨c, rest, rfl, rfl⟩)))
      | outb port value =>
        exact Or.inr (Or.inr (Or.inr (Or.inr (Or.inl
          ⟨port, value, rest, ht, Or.inr rfl, rfl⟩))))
      | writestring _ => exact ht.elim
      | irqInstallHandler _ => exact ht.elim
    | iret => exact Or.inr (Or.inr (Or.inr (Or.inr (Or.inr ⟨rest, rfl, rfl⟩))))
    | stray => exact ht.elim

/-! ## Acknowledgements -/

/-- The controllers as `pic_remap` leaves them. -/
def remapped : PicPair := ⟨⟨.mask, 0x11, 0x20, 0x00⟩, ⟨.mask, 0x11, 0x28, 0x00⟩⟩

namespace PicLinesPair

variable {p : PicLinesPair}

lemma requestKeyboard_toPair (p : PicLinesPair) : p.requestKeyboard.toPair = p.toPair := rfl

/-- No line is masked. -/
lemma vector_ne_none (hpair : p.toPair = remapped) :
    (∀ n : Fin 8, p.master.pic.vector n ≠ none) ∧ ∀ n : Fin 8, p.slave.pic.vector n ≠ none := by
  have hvector : (∀ n : Fin 8, remapped.master.vector n ≠ none) ∧
      ∀ n : Fin 8, remapped.slave.vector n ≠ none := by
    decide
  rwa [← hpair] at hvector

/-- The vectors start at `0x20` and `0x28`. -/
lemma base_of_remapped (hpair : p.toPair = remapped) :
    p.master.pic.base = 0x20#8 ∧ p.slave.pic.base = 0x28#8 := by
  have hbase : remapped.master.base = 0x20#8 ∧ remapped.slave.base = 0x28#8 := ⟨rfl, rfl⟩
  rwa [← hpair] at hbase

/-- What an acknowledgement can do: answer for a line that is gone, put a line of the master into
service, put a line of the slave into service, or find the line of the slave gone. -/
lemma acknowledge_cases (late : Bool) (p : PicLinesPair) :
    (p.winner = none ∧ p.acknowledge late = (p, p.master.pic.base + 7)) ∨
    (∃ n, p.winner = some n ∧ n ≠ 2 ∧ p.acknowledge late =
      ({ p with master := p.master.serve n }, p.master.pic.base + BitVec.ofNat 8 n)) ∨
    (∃ k, p.winner = some 2 ∧ late = false ∧ p.slave.winner = some k ∧ p.acknowledge late =
      (⟨p.master.serve 2, p.slave.serve k⟩, p.slave.pic.base + BitVec.ofNat 8 k)) ∨
    (p.winner = some 2 ∧ (late = true ∨ p.slave.winner = none) ∧ p.acknowledge late =
      ({ p with master := p.master.serve 2 }, p.slave.pic.base + 7)) := by
  cases hwinner : p.winner with
  | none =>
    refine Or.inl ⟨rfl, ?_⟩
    rw [acknowledge, hwinner]
  | some n =>
    by_cases hn : n = 2
    · subst hn
      have hack : p.acknowledge late = p.acknowledgeSlave late := by
        rw [acknowledge, hwinner]
        rfl
      rw [hack, acknowledgeSlave]
      cases late with
      | true => exact Or.inr (Or.inr (Or.inr ⟨rfl, Or.inl rfl, rfl⟩))
      | false =>
        cases hslave : p.slave.winner with
        | none => exact Or.inr (Or.inr (Or.inr ⟨rfl, Or.inr rfl, rfl⟩))
        | some k => exact Or.inr (Or.inr (Or.inl ⟨k, rfl, rfl, rfl, rfl⟩))
    · refine Or.inr (Or.inl ⟨n, rfl, hn, ?_⟩)
      rw [acknowledge, hwinner]
      exact if_neg hn

/-- An acknowledgement with nothing in service: the processor is given the vector of a line, and
what is now in service is that line alone, together with the line of the slave. -/
lemma acknowledge_idle (hpair : p.toPair = remapped) (hidle : p.Idle) (late : Bool) :
    ∃ m : Fin 16, (p.acknowledge late).2 = irqVector m ∧
      (p.acknowledge late).1.toPair = remapped ∧
      ((m.val < 8 ∧ (p.acknowledge late).1.slave.isr = ∅ ∧
          ∃ n, (p.acknowledge late).1.master.isr ⊆ {n}) ∨
        (8 ≤ m.val ∧ (p.acknowledge late).1.master.isr ⊆ {2} ∧
          ∃ k, (p.acknowledge late).1.slave.isr ⊆ {k})) := by
  obtain ⟨hmaster, hslave⟩ := base_of_remapped hpair
  obtain ⟨hmisr, hsisr⟩ := hidle
  have hvector : ∀ n : Fin 8, 0x20#8 + BitVec.ofNat 8 n = irqVector ⟨n, by omega⟩ := by decide
  have hvector' : ∀ n : Fin 8, 0x28#8 + BitVec.ofNat 8 n = irqVector ⟨8 + n, by omega⟩ := by decide
  rcases acknowledge_cases late p with
    ⟨-, h⟩ | ⟨n, -, -, h⟩ | ⟨k, -, -, -, h⟩ | ⟨-, -, h⟩ <;> rw [h]
  · refine ⟨7, by rw [hmaster]; rfl, hpair, Or.inl ⟨by decide, hsisr, 0, ?_⟩⟩
    rw [hmisr]
    exact Finset.empty_subset _
  · refine ⟨⟨n, by omega⟩, by rw [hmaster, hvector], hpair, Or.inl ⟨n.isLt, hsisr, n, ?_⟩⟩
    rw [PicLines.serve, hmisr]
    rfl
  · refine ⟨⟨8 + k, by omega⟩, by rw [hslave, hvector'], hpair,
      Or.inr ⟨by simp, ?_, k, ?_⟩⟩
    · change insert 2 p.master.isr ⊆ {2}
      rw [hmisr]
      rfl
    · change insert k p.slave.isr ⊆ {k}
      rw [hsisr]
      rfl
  · refine ⟨15, by rw [hslave]; rfl, hpair, Or.inr ⟨by decide, ?_, 0, ?_⟩⟩
    · rw [PicLines.serve, hmisr]
      rfl
    · rw [hsisr]
      exact Finset.empty_subset _

/-- An end-of-interrupt command does not change the programming of the controllers. -/
lemma toPair_outb_of_isEoi {port : BitVec 16} {value : BitVec 8} (h : IsEoi port value) :
    (p.outb port value).toPair = p.toPair := by
  obtain ⟨rfl | rfl, rfl⟩ := h
  · exact toPair_outb _ _ p
  · exact toPair_outb _ _ p

/-- One command clears what is in service at the master. -/
lemma idle_outbs_master {n : Fin 8} (hmaster : p.master.isr ⊆ {n}) (hslave : p.slave.isr = ∅) :
    (p.outbs [(0x20, 0x20)]).Idle := by
  refine ⟨?_, hslave⟩
  change (p.master.writeCommand 0x20#8).isr = ∅
  rw [PicLines.writeCommand_eoi]
  exact PicLines.isr_endOfInterrupt_of_subset hmaster

/-- Two commands clear what is in service at both controllers. -/
lemma idle_outbs_slave {n k : Fin 8} (hmaster : p.master.isr ⊆ {n}) (hslave : p.slave.isr ⊆ {k}) :
    (p.outbs [(0xA0, 0x20), (0x20, 0x20)]).Idle := by
  refine idle_outbs_master (p := p.outb 0xA0#16 0x20#8) hmaster ?_
  change (p.slave.writeCommand 0x20#8).isr = ∅
  rw [PicLines.writeCommand_eoi]
  exact PicLines.isr_endOfInterrupt_of_subset hslave

end PicLinesPair

/-! ## Nothing stays in service -/

/-- The invariant of a platform whose entry code passes the vector. -/
structure ServiceInv (P : Platform) : Prop where
  /-- The controllers are as `pic_remap` left them. -/
  pair : P.pics.toPair = remapped
  /-- The one handler is that of the keyboard. -/
  handlers : ∀ v, P.tables.handlers v = if v = irqVector 1 then some .keyboardHandler else none
  ordinary : ∀ t ∈ P.todo, t.Ordinary
  /-- The port writes that are left to do clear what is in service. -/
  idle : (P.pics.outbs (P.todo.flatMap Todo.writes)).Idle

/-- The handler of the line `m`. -/
def lineTodo (m : Fin 16) : List Todo :=
  if m = 1 then [.interrupt (.callHandler .keyboardHandler), .iret]
  else if 8 ≤ m.val then [.interrupt (.outb 0xA0 0x20), .interrupt (.outb 0x20 0x20), .iret]
  else [.interrupt (.outb 0x20 0x20), .iret]

/-- `interrupt_handler` with the vector of the line `m` runs the handler of the line. -/
lemma enterHandler_irqVector {P : Platform}
    (h : ∀ v, P.tables.handlers v = if v = irqVector 1 then some .keyboardHandler else none)
    (m : Fin 16) : P.enterHandler ((irqVector m).setWidth 32) = lineTodo m := by
  have heffects : interruptHandler P.tables ((irqVector m).setWidth 32) 0 =
      some (if m = 1 then [.callHandler .keyboardHandler] else picSendEoi (BitVec.ofNat 8 m)) := by
    rw [interruptHandler, h]
    revert m
    decide
  have hval : (BitVec.ofNat 8 m.val).toNat = m := by
    rw [BitVec.toNat_ofNat]
    omega
  rw [Platform.enterHandler, heffects, lineTodo, picSendEoi, hval]
  split_ifs <;> rfl

lemma ordinary_lineTodo (m : Fin 16) : ∀ t ∈ lineTodo m, t.Ordinary := by
  rw [lineTodo]
  split_ifs <;> simp [Todo.Ordinary, IsEoi]

/-- The keyboard's handler and the default handler of a line of the master send one command, that of
a line of the slave sends two. -/
lemma writes_lineTodo (m : Fin 16) : (lineTodo m).flatMap Todo.writes =
    if 8 ≤ m.val then [(0xA0, 0x20), (0x20, 0x20)] else [(0x20, 0x20)] := by
  rw [lineTodo]
  by_cases hm : m = 1
  · subst hm
    rfl
  · rw [if_neg hm]
    split_ifs <;> rfl

lemma ServiceInv.of_sameService {P : Platform} (h : ServiceInv P) {pics : PicLinesPair}
    (hpair : pics.toPair = P.pics.toPair) (hsame : PicLinesPair.SameService pics P.pics) :
    (pics.outbs (P.todo.flatMap Todo.writes)).Idle ∧ pics.toPair = remapped := by
  obtain ⟨hmaster, hslave⟩ := hsame.outbs (P.todo.flatMap Todo.writes)
  exact ⟨⟨hmaster.trans h.idle.1, hslave.trans h.idle.2⟩, hpair.trans h.pair⟩

/-- Devices change requests only. -/
lemma Device.sameService (device : Device) (p : PicLinesPair) :
    (PicLinesPair.SameService (device.request p) p ∧ (device.request p).toPair = p.toPair) ∧
      PicLinesPair.SameService (device.withdraw p) p ∧ (device.withdraw p).toPair = p.toPair := by
  cases device <;> exact ⟨⟨⟨rfl, rfl⟩, rfl⟩, ⟨rfl, rfl⟩, rfl⟩

section

variable {P : Platform} {entry : EntryCode}

lemma ServiceInv.load (h : ServiceInv P) : ServiceInv P.load := by
  rw [Platform.load]
  split
  · exact h
  · split
    · exact h
    · obtain ⟨hidle, hpair⟩ := h.of_sameService P.pics.requestKeyboard_toPair ⟨rfl, rfl⟩
      exact ⟨hpair, h.handlers, h.ordinary, hidle⟩

/-- While a handler runs no interrupt is accepted. -/
lemma Platform.acknowledge_of_running (entry : EntryCode) (late : Bool) (c : Cpu)
    (htodo : P.todo ≠ []) : P.acknowledge entry late c = P := by
  rw [Platform.acknowledge]
  split
  · contradiction
  · rfl

/-- The vector of the line `m` starts the handler of the line. -/
lemma ServiceInv.acknowledge_eq (h : ServiceInv P) (htodo : P.todo = []) {late : Bool} {c : Cpu}
    (hpass : PassesVector entry (.acknowledge late c) P) {m : Fin 16}
    (hvector : (P.pics.acknowledge late).2 = irqVector m) :
    P.acknowledge entry late c =
      { P with pics := (P.pics.acknowledge late).1, todo := lineTodo m } := by
  have hnumber := hpass htodo
  rw [Platform.acknowledge, htodo]
  dsimp only
  rw [hnumber, hvector, enterHandler_irqVector h.handlers]

/-- The handler that an acknowledgement starts sends the commands for what it put into service. -/
lemma ServiceInv.acknowledge (h : ServiceInv P) {late : Bool} {c : Cpu}
    (hpass : PassesVector entry (.acknowledge late c) P) :
    ServiceInv (P.acknowledge entry late c) := by
  by_cases htodo : P.todo = []
  · have hidle := h.idle
    rw [htodo] at hidle
    obtain ⟨m, hvector, hpair, hservice⟩ := PicLinesPair.acknowledge_idle h.pair hidle late
    rw [h.acknowledge_eq htodo hpass hvector]
    refine ⟨hpair, h.handlers, ordinary_lineTodo m, ?_⟩
    rw [writes_lineTodo]
    rcases hservice with ⟨hlt, hslave, n, hmaster⟩ | ⟨hle, hmaster, k, hslave⟩
    · rw [if_neg (Nat.not_le.mpr hlt)]
      exact PicLinesPair.idle_outbs_master hmaster hslave
    · rw [if_pos hle]
      exact PicLinesPair.idle_outbs_slave hmaster hslave
  · rw [Platform.acknowledge_of_running _ _ _ htodo]
    exact h

/-- The effects of `keyboard_handler` send one command. -/
lemma driver_ordinary_writes (b : BitVec 8) (k : KeyboardState) :
    (∀ t ∈ (keyboardHandler b k).2.map Todo.driver, t.Ordinary) ∧
      ((keyboardHandler b k).2.map Todo.driver).flatMap Todo.writes = [(0x20, 0x20)] := by
  rw [keyboardHandler_effects, List.map_append, List.map_map]
  refine ⟨?_, ?_⟩
  · rw [List.forall_mem_append]
    refine ⟨?_, by simp [Todo.Ordinary, IsEoi]⟩
    intro t ht
    obtain ⟨c, -, rfl⟩ := List.mem_map.mp ht
    trivial
  · rw [List.flatMap_append, List.flatMap_map]
    simp [Todo.writes]

/-- Performing an effect takes its port writes off the list. -/
lemma ServiceInv.execute (h : ServiceInv P) : ServiceInv P.execute := by
  have hcases := P.execute_cases h.ordinary
  obtain ⟨hpair, hhandlers, hordinary, hidle⟩ := h
  rcases hcases with ⟨-, hexec⟩ | ⟨rest, htodo, hexec⟩ | ⟨rest, htodo, hexec⟩ |
    ⟨c, rest, htodo, hexec⟩ | ⟨port, value, rest, heoi, htodo | htodo, hexec⟩ |
    ⟨rest, htodo, hexec⟩ <;> rw [hexec]
  · exact ⟨hpair, hhandlers, hordinary, hidle⟩
  all_goals
    rw [htodo] at hordinary hidle
    rw [List.flatMap_cons] at hidle
    have hrest := (List.forall_mem_cons.mp hordinary).2
  · exact ⟨hpair, hhandlers, List.forall_mem_cons.mpr ⟨trivial, hrest⟩, hidle⟩
  · obtain ⟨hdriver, hwrites⟩ := driver_ordinary_writes P.data P.keyboard
    refine ⟨hpair, hhandlers, List.forall_mem_append.mpr ⟨hdriver, hrest⟩, ?_⟩
    dsimp only
    rw [List.flatMap_append, hwrites]
    exact hidle
  · exact ⟨hpair, hhandlers, hrest, hidle⟩
  · exact ⟨(PicLinesPair.toPair_outb_of_isEoi heoi).trans hpair, hhandlers, hrest, hidle⟩
  · exact ⟨(PicLinesPair.toPair_outb_of_isEoi heoi).trans hpair, hhandlers, hrest, hidle⟩
  · exact ⟨hpair, hhandlers, hrest, hidle⟩

/-- Every event in which the vector is passed keeps the invariant. -/
theorem ServiceInv.step (h : ServiceInv P) {event : PlatformEvent}
    (hpass : PassesVector entry event P) : ServiceInv (P.step entry event) := by
  cases event with
  | key byte => exact ⟨h.pair, h.handlers, h.ordinary, h.idle⟩
  | load => exact h.load
  | request device =>
    obtain ⟨⟨hsame, hpair⟩, -⟩ := device.sameService P.pics
    obtain ⟨hidle, hpair⟩ := h.of_sameService hpair hsame
    exact ⟨hpair, h.handlers, h.ordinary, hidle⟩
  | withdraw device =>
    obtain ⟨-, hsame, hpair⟩ := device.sameService P.pics
    obtain ⟨hidle, hpair⟩ := h.of_sameService hpair hsame
    exact ⟨hpair, h.handlers, h.ordinary, hidle⟩
  | acknowledge late c => exact h.acknowledge hpass
  | execute => exact h.execute

/-- A run keeps the invariant. -/
lemma ServiceInv.run (h : ServiceInv P) {events : List PlatformEvent}
    (hpass : Along (Platform.step entry) (PassesVector entry) events P) :
    ServiceInv (runActions (Platform.step entry) events P) :=
  hpass.invariant h fun _ _ hP hok => hP.step hok

/-- Without a running handler nothing is in service, and every requested line can interrupt. -/
lemma ServiceInv.eligible (h : ServiceInv P) (htodo : P.todo = []) :
    P.pics.Idle ∧ P.pics.master.eligible = P.pics.master.irr ∧
      P.pics.slave.eligible = P.pics.slave.irr := by
  have hidle : P.pics.Idle := by
    have hidle := h.idle
    rwa [htodo] at hidle
  obtain ⟨hmaster, hslave⟩ := PicLinesPair.vector_ne_none h.pair
  exact ⟨hidle, PicLines.eligible_eq hmaster hidle.1, PicLines.eligible_eq hslave hidle.2⟩

end

/-- The boot sequence establishes the invariant. -/
lemma serviceInv_boot (link : KernelLink) (pics : PicLinesPair)
    (tables : InterruptState KernelHandler) (keyboard : KeyboardState) (terminal : TerminalState)
    (data : BitVec 8) : ServiceInv (Platform.boot link pics tables keyboard terminal data) where
  pair := by
    rw [Platform.boot, PicLinesPair.toPair_outbs]
    simp [picRemap, PicPair.outb, Pic.writeCommand, Pic.writeData, Pic.lastPhase, remapped]
  handlers v := by
    change Function.update (interruptsInit link tables).handlers (irqVector 1) _ v = _
    rw [Function.update_apply, handlers_interruptsInit]
  ordinary := by simp [Platform.boot]
  idle := ⟨rfl, rfl⟩

/-- **Nothing stays in service.**  After `interrupts_init` and `keyboard_init`, for every
interleaving of key strokes, requests and withdrawn requests of devices on the lines other than the
keyboard's and the cascade, acknowledgements, spurious ones among them, and single effects of the
handlers, in which `interrupt_handler` is called with the vector of the interrupt: whenever no
handler is running both in-service registers are empty and every requested line of both controllers
can interrupt. -/
theorem inService_empty_without_handler (entry : EntryCode) (link : KernelLink)
    (pics : PicLinesPair) (tables : InterruptState KernelHandler) (keyboard : KeyboardState)
    (terminal : TerminalState) (data : BitVec 8) (events : List PlatformEvent)
    (hentry : Along (Platform.step entry) (PassesVector entry) events
      (Platform.boot link pics tables keyboard terminal data))
    (htodo : (runActions (Platform.step entry) events
      (Platform.boot link pics tables keyboard terminal data)).todo = []) :
    let P := runActions (Platform.step entry) events
      (Platform.boot link pics tables keyboard terminal data)
    P.pics.Idle ∧ P.pics.master.eligible = P.pics.master.irr ∧
      P.pics.slave.eligible = P.pics.slave.irr :=
  ((serviceInv_boot link pics tables keyboard terminal data).run hentry).eligible htodo

/-- A platform on which nothing has happened yet. -/
def blankPlatform : Platform :=
  .boot blockLink ⟨⟨⟨.mask, 0, 0, 0⟩, ∅, ∅⟩, ⟨⟨.mask, 0, 0, 0⟩, ∅, ∅⟩⟩
    ⟨fun _ => ⟨0, 0, 0, 0, 0⟩, ⟨0, 0⟩, fun _ => none⟩ ⟨0, 0, 0, 0⟩ ⟨0, 0, 7, fun _ => 0⟩ 0

/-- A timer interrupt is served by the stubs, in a context in which `GS` happens to be its vector,
and nothing stays in service. -/
theorem inService_empty_after_timer :
    (runActions (Platform.step (stubEntry true)) [.request (.master 0 (by decide)),
      .acknowledge false { kernelContext with segs := fun _ => 0x20#16 }, .execute, .execute]
      blankPlatform).pics.Idle := by
  obtain ⟨c, hc⟩ : ∃ c : Cpu, c = { kernelContext with segs := fun _ => 0x20#16 } := ⟨_, rfl⟩
  rw [← hc]
  have hgs : gsWord true c = 0x20#32 := by rw [hc]; rfl
  have hvector : ((blankPlatform.step (stubEntry true)
      (.request (.master 0 (by decide)))).pics.acknowledge false).2 = irqVector 0 := by
    decide
  have hentry : Along (Platform.step (stubEntry true)) (PassesVector (stubEntry true))
      [.request (.master 0 (by decide)), .acknowledge false c, .execute, .execute]
      blankPlatform := by
    refine ⟨trivial, fun _ => ?_, trivial, trivial, trivial⟩
    rw [hvector, stubEntry, hgs]
    rfl
  refine (inService_empty_without_handler (stubEntry true) _ _ _ _ _ _ _ hentry ?_).1
  have hinv : ServiceInv (blankPlatform.step (stubEntry true) (.request (.master 0 (by decide)))) :=
    (serviceInv_boot _ _ _ _ _ _).step hentry.1
  have hack : Platform.step (stubEntry true) (.acknowledge false c)
      (blankPlatform.step (stubEntry true) (.request (.master 0 (by decide)))) = _ :=
    hinv.acknowledge_eq rfl hentry.2.1 hvector
  rw [← blankPlatform, runActions, runActions, hack]
  rfl

end VVBright
