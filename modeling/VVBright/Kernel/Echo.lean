import VVBright.Kernel.Platform

/-!
# From the keyboard to the screen

A byte from the keyboard waits in the queue, then in the data register with line 1 requested, then
for the `inb` of the handler that the line has started, and then its character waits for
`terminal_putchar`.  Between any two of these stages anything else can happen.

Two equations follow a byte through the stages (`EchoInv`).  The bytes typed are the bytes handled,
then the one in the data register, then the queue; and the data register is full exactly when one
request or one handler is on its way to read it.  So no byte is lost, read twice or overtaken, and
the driver and the terminal are where the bytes handled so far have brought them.

Nor does a byte wait for ever: a round in which the controller of the keyboard is given the chance
to load a byte, the processor accepts an interrupt and its handler runs to the end lowers
`Platform.backlog`, until everything typed is on the screen (`Tracked.serviceRounds`).

The runs are those in which `interrupt_handler` is called with the vector.  The stubs call it so
only if the interrupted program happens to have the vector in `GS`.
-/

namespace VVBright

open Traced

/-! ## Bytes on their way -/

/-- The bytes the keyboard sends. -/
def typedBytes (events : List PlatformEvent) : List (BitVec 8) :=
  events.filterMap fun
    | .key byte => some byte
    | _ => none

/-- The byte in the data register. -/
def Platform.inRegister (P : Platform) : List (BitVec 8) := if P.full then [P.data] else []

/-- The characters that are left to print. -/
def Todo.chars : Todo → List (BitVec 8)
  | .driver (.putchar c) => [c]
  | _ => []

/-- The reads of the data register that are left to do. -/
def Todo.reads : Todo → ℕ
  | .interrupt (.callHandler _) => 1
  | .readKeyboard => 1
  | _ => 0

/-- The driver after some bytes, with the characters it has printed. -/
def printRun (k : KeyboardState) (bytes : List (BitVec 8)) : KeyboardState × List (BitVec 8) :=
  runActions printStep bytes (k, [])

/-- The terminal after some characters. -/
def putchars (cs : List (BitVec 8)) (t : TerminalState) : TerminalState :=
  (cs.forM terminalPutchar).exec t

lemma putchars_cons (c : BitVec 8) (cs : List (BitVec 8)) (t : TerminalState) :
    putchars (c :: cs) t = putchars cs ((terminalPutchar c).exec t) := rfl

lemma putchars_append (cs ds : List (BitVec 8)) (t : TerminalState) :
    putchars (cs ++ ds) t = putchars ds (putchars cs t) := by
  induction cs generalizing t with
  | nil => rfl
  | cons c cs ih => rw [List.cons_append, putchars_cons, putchars_cons, ih]

/-- One more byte. -/
lemma printRun_append (k : KeyboardState) (bytes : List (BitVec 8)) (b : BitVec 8) :
    printRun k (bytes ++ [b]) = printStep b (printRun k bytes) := by
  rw [printRun, runActions_append]
  rfl

/-- Where the bytes are: `handled` of the bytes `typed` have been read, starting from the driver `k`
and the terminal `t`. -/
structure EchoInv (k : KeyboardState) (t : TerminalState) (typed handled : List (BitVec 8))
    (P : Platform) : Prop where
  /-- No byte is lost or overtaken. -/
  bytes : typed = handled ++ P.inRegister ++ P.queue
  /-- The driver has seen the handled bytes. -/
  driver : P.keyboard = (printRun k handled).1
  /-- The terminal shows what the driver printed, up to what is left to print. -/
  screen : putchars (P.todo.flatMap Todo.chars) P.terminal = putchars (printRun k handled).2 t
  /-- A full data register is read once. -/
  reads : (P.todo.map Todo.reads).sum + (if 1 ∈ P.pics.master.irr then 1 else 0) =
    if P.full then 1 else 0
  /-- A byte is not read before the last character is printed. -/
  order : (P.todo.map Todo.reads).sum ≠ 0 → P.todo.flatMap Todo.chars = []

/-! ## One event -/

/-- An end-of-interrupt command leaves the requests alone. -/
lemma PicLinesPair.irr_outb_of_isEoi {port : BitVec 16} {value : BitVec 8} (h : IsEoi port value)
    (p : PicLinesPair) : (p.outb port value).master.irr = p.master.irr ∧
      (p.outb port value).slave.irr = p.slave.irr := by
  obtain ⟨rfl | rfl, rfl⟩ := h
  · refine ⟨?_, rfl⟩
    change (p.master.writeCommand 0x20#8).irr = _
    rw [PicLines.writeCommand_eoi, p.master.endOfInterrupt_pic.2]
  · refine ⟨rfl, ?_⟩
    change (p.slave.writeCommand 0x20#8).irr = _
    rw [PicLines.writeCommand_eoi, p.slave.endOfInterrupt_pic.2]

/-- A line of the master other than line 2 that is acknowledged was requested. -/
lemma PicLinesPair.mem_irr_of_winner {p : PicLinesPair} {n : Fin 8} (h : p.winner = some n)
    (hn : n ≠ 2) : n ∈ p.master.irr := by
  have hmem := mem_of_highest h
  rw [PicLines.eligible, Finset.mem_filter] at hmem
  have hirr := hmem.1
  dsimp only at hirr
  split at hirr
  · exact (Finset.mem_insert.mp hirr).resolve_left hn
  · exact hirr

/-- The vector of the keyboard is given exactly when the request of its line is taken. -/
lemma PicLinesPair.acknowledge_keyboard {p : PicLinesPair} (hpair : p.toPair = remapped)
    {late : Bool} {m : Fin 16} (hvector : (p.acknowledge late).2 = irqVector m) :
    (m = 1 ∧ 1 ∈ p.master.irr ∧ 1 ∉ (p.acknowledge late).1.master.irr) ∨
      (m ≠ 1 ∧ (1 ∈ (p.acknowledge late).1.master.irr ↔ 1 ∈ p.master.irr)) := by
  obtain ⟨hmaster, hslave⟩ := base_of_remapped hpair
  have hother : 1 ∈ p.master.irr.erase 2 ↔ 1 ∈ p.master.irr := by
    rw [Finset.mem_erase]
    exact and_iff_right (by decide)
  have hvectors : ∀ n : Fin 8, (0x20#8 + BitVec.ofNat 8 n = irqVector 1 ↔ n = 1) ∧
      0x28#8 + BitVec.ofNat 8 n ≠ irqVector 1 := by
    decide
  rcases acknowledge_cases late p with ⟨-, h⟩ | ⟨n, hwin, hn, h⟩ | ⟨k, -, -, -, h⟩ | ⟨-, -, h⟩ <;>
    rw [h] at hvector ⊢
  · change p.master.pic.base + 7 = irqVector m at hvector
    refine Or.inr ⟨?_, Iff.rfl⟩
    rintro rfl
    rw [hmaster] at hvector
    exact absurd ((hvectors 7).1.mp hvector) (by decide)
  · change p.master.pic.base + BitVec.ofNat 8 n = irqVector m at hvector
    rw [hmaster] at hvector
    by_cases hone : n = 1
    · rw [(hvectors n).1.mpr hone] at hvector
      have hmem := mem_irr_of_winner hwin hn
      rw [hone] at hmem
      refine Or.inl ⟨irqVector_injective hvector.symm, hmem, ?_⟩
      rw [hone]
      exact Finset.notMem_erase _ _
    · refine Or.inr ⟨?_, Finset.mem_erase.trans (and_iff_right (Ne.symm hone))⟩
      rintro rfl
      exact hone ((hvectors n).1.mp hvector)
  · change p.slave.pic.base + BitVec.ofNat 8 k = irqVector m at hvector
    refine Or.inr ⟨?_, hother⟩
    rintro rfl
    rw [hslave] at hvector
    exact (hvectors k).2 hvector
  · change p.slave.pic.base + 7 = irqVector m at hvector
    refine Or.inr ⟨?_, hother⟩
    rintro rfl
    rw [hslave] at hvector
    exact (hvectors 7).2 hvector

section

variable {k : KeyboardState} {t : TerminalState} {typed handled : List (BitVec 8)} {P : Platform}
  {entry : EntryCode}

lemma EchoInv.key (h : EchoInv k t typed handled P) (byte : BitVec 8) :
    EchoInv k t (typed ++ [byte]) handled { P with queue := P.queue ++ [byte] } := by
  refine ⟨?_, h.driver, h.screen, h.reads, h.order⟩
  rw [h.bytes, List.append_assoc]
  rfl

lemma EchoInv.load (h : EchoInv k t typed handled P) : EchoInv k t typed handled P.load := by
  rw [Platform.load]
  split
  · exact h
  · rename_i byte rest hqueue
    split
    · exact h
    · rename_i hfull
      obtain ⟨hbytes, hdriver, hscreen, hreads, horder⟩ := h
      rw [Bool.not_eq_true] at hfull
      rw [hfull] at hreads
      have hnone : (P.todo.map Todo.reads).sum = 0 := by
        simp at hreads
        exact hreads.1
      refine ⟨?_, hdriver, hscreen, ?_, horder⟩
      · rw [hbytes, Platform.inRegister, hfull, hqueue]
        simp [Platform.inRegister]
      · simp [hnone, PicLinesPair.requestKeyboard, PicLinesPair.requestMaster]

/-- Other devices do not touch line 1. -/
lemma Device.one_mem_irr (device : Device) (p : PicLinesPair) :
    (1 ∈ (device.request p).master.irr ↔ 1 ∈ p.master.irr) ∧
      (1 ∈ (device.withdraw p).master.irr ↔ 1 ∈ p.master.irr) := by
  cases device with
  | master n own =>
    have hn : 1 ≠ n := fun h => own.1 (congrArg Fin.val h).symm
    exact ⟨Finset.mem_insert.trans (or_iff_right hn),
      Finset.mem_erase.trans (and_iff_right hn)⟩
  | slave n => exact ⟨Iff.rfl, Iff.rfl⟩

lemma EchoInv.of_irr (h : EchoInv k t typed handled P) {pics : PicLinesPair}
    (hirr : 1 ∈ pics.master.irr ↔ 1 ∈ P.pics.master.irr) :
    EchoInv k t typed handled { P with pics := pics } := by
  refine ⟨h.bytes, h.driver, h.screen, ?_, h.order⟩
  rw [← h.reads]
  simp only [hirr]

/-- The handlers of lines print nothing at once, and only that of the keyboard reads. -/
lemma lineTodo_chars_reads (m : Fin 16) : (lineTodo m).flatMap Todo.chars = [] ∧
    ((lineTodo m).map Todo.reads).sum = if m = 1 then 1 else 0 := by
  rw [lineTodo]
  split_ifs <;> exact ⟨rfl, rfl⟩

lemma EchoInv.acknowledge (h : EchoInv k t typed handled P) (hservice : ServiceInv P) {late : Bool}
    {c : Cpu} (hpass : PassesVector entry (.acknowledge late c) P) :
    EchoInv k t typed handled (P.acknowledge entry late c) := by
  by_cases htodo : P.todo = []
  · have hidle := hservice.idle
    rw [htodo] at hidle
    obtain ⟨m, hvector, -, -⟩ := PicLinesPair.acknowledge_idle hservice.pair hidle late
    obtain ⟨hchars, hreads⟩ := lineTodo_chars_reads m
    rw [hservice.acknowledge_eq htodo hpass hvector]
    have hscreen := h.screen
    have hcount := h.reads
    rw [htodo] at hscreen hcount
    refine ⟨h.bytes, h.driver, ?_, ?_, fun _ => hchars⟩
    · simp only [hchars]
      exact hscreen
    · simp only [hreads, ← hcount, List.map_nil, List.sum_nil, Nat.zero_add]
      rcases PicLinesPair.acknowledge_keyboard hservice.pair hvector with
        ⟨hm, hbefore, hafter⟩ | ⟨hm, hiff⟩
      · rw [if_pos hm, if_neg hafter, if_pos hbefore]
      · simp only [if_neg hm, hiff, Nat.zero_add]
  · rw [Platform.acknowledge_of_running _ _ _ htodo]
    exact h

/-- The effects of `keyboard_handler` print its characters and read nothing. -/
lemma driver_chars_reads (b : BitVec 8) (k : KeyboardState) :
    ((keyboardHandler b k).2.map Todo.driver).flatMap Todo.chars = handlerChars b k ∧
      (((keyboardHandler b k).2.map Todo.driver).map Todo.reads).sum = 0 := by
  rw [keyboardHandler_effects]
  simp [Todo.chars, Todo.reads, List.flatMap_map, Function.comp_def]

/-- An effect that neither reads nor prints is performed. -/
lemma EchoInv.quiet (h : EchoInv k t typed handled P) {u : Todo} {rest : List Todo}
    (htodo : P.todo = u :: rest) (hreads : u.reads = 0) (hchars : u.chars = [])
    {pics : PicLinesPair} (hirr : pics.master.irr = P.pics.master.irr) :
    EchoInv k t typed handled { P with todo := rest, pics := pics } := by
  have hflat : P.todo.flatMap Todo.chars = rest.flatMap Todo.chars := by
    rw [htodo, List.flatMap_cons, hchars, List.nil_append]
  have hsum : (P.todo.map Todo.reads).sum = (rest.map Todo.reads).sum := by
    rw [htodo, List.map_cons, List.sum_cons, hreads, Nat.zero_add]
  obtain ⟨hbytes, hdriver, hscreen, hcount, horder⟩ := h
  rw [hflat] at hscreen horder
  rw [hsum] at hcount horder
  refine ⟨hbytes, hdriver, hscreen, ?_, horder⟩
  rw [← hcount]
  simp only [hirr]

/-- The byte that is read counts as handled from then on. -/
lemma EchoInv.readKeyboard (h : EchoInv k t typed handled P) {rest : List Todo}
    (htodo : P.todo = .readKeyboard :: rest) :
    EchoInv k t typed (handled ++ [P.data]) P.execute := by
  obtain ⟨hbytes, hdriver, hscreen, hreads, horder⟩ := h
  rw [htodo] at hscreen hreads horder
  rw [List.flatMap_cons] at hscreen horder
  rw [List.map_cons, List.sum_cons] at hreads horder
  -- the register is full, nothing else is about to read it, and nothing is left to print
  have hfull : P.full = true := by
    by_contra hempty
    rw [if_neg hempty] at hreads
    change 1 + _ + _ = 0 at hreads
    omega
  rw [hfull, if_pos rfl] at hreads
  change 1 + (rest.map Todo.reads).sum + _ = 1 at hreads
  have hrest : (rest.map Todo.reads).sum = 0 := by omega
  have hirr : 1 ∉ P.pics.master.irr := by
    intro hmem
    rw [if_pos hmem] at hreads
    omega
  have hchars : rest.flatMap Todo.chars = [] := horder (by change 1 + _ ≠ 0; omega)
  have hterminal : P.terminal = putchars (printRun k handled).2 t := by
    rw [← hscreen, hchars]
    rfl
  obtain ⟨hprints, hnone⟩ := driver_chars_reads P.data P.keyboard
  have hsum : (((keyboardHandler P.data P.keyboard).2.map Todo.driver ++ rest).map
      Todo.reads).sum = 0 := by
    rw [List.map_append, List.sum_append, hnone, hrest]
  rw [Platform.execute, htodo]
  refine ⟨?_, ?_, ?_, ?_, fun hne => absurd hsum hne⟩
  · rw [hbytes, Platform.inRegister, if_pos hfull]
    exact congrArg (· ++ P.queue) (List.append_nil _).symm
  · rw [printRun_append, printStep, ← hdriver]
    rfl
  · dsimp only
    rw [List.flatMap_append, hprints, hchars, List.append_nil, printRun_append, printStep,
      ← hdriver, putchars_append, ← hterminal]
  · dsimp only
    rw [hsum, if_neg hirr]
    rfl

/-- An effect is performed. -/
lemma EchoInv.execute (h : EchoInv k t typed handled P) (hservice : ServiceInv P) :
    ∃ handled', EchoInv k t typed handled' P.execute := by
  rcases P.execute_cases hservice.ordinary with ⟨-, hexec⟩ | ⟨rest, htodo, hexec⟩ |
    ⟨rest, htodo, -⟩ | ⟨c, rest, htodo, hexec⟩ | ⟨port, value, rest, heoi, htodo | htodo, hexec⟩ |
    ⟨rest, htodo, hexec⟩
  · rw [hexec]
    exact ⟨handled, h⟩
  · obtain ⟨hbytes, hdriver, hscreen, hreads, horder⟩ := h
    rw [htodo] at hscreen hreads horder
    rw [hexec]
    exact ⟨handled, hbytes, hdriver, hscreen, hreads, horder⟩
  · exact ⟨_, h.readKeyboard htodo⟩
  · obtain ⟨hbytes, hdriver, hscreen, hreads, horder⟩ := h
    rw [htodo] at hscreen hreads horder
    rw [List.map_cons, List.sum_cons] at hreads horder
    rw [hexec]
    refine ⟨handled, hbytes, hdriver, hscreen, ?_, fun hne => ?_⟩
    · exact (congrArg (· + _) (Nat.zero_add _)).symm.trans hreads
    · refine absurd (horder ?_) (List.cons_ne_nil _ _)
      exact fun hzero => hne (Nat.eq_zero_of_add_eq_zero_left hzero)
  · rw [hexec]
    exact ⟨handled, h.quiet htodo rfl rfl (P.pics.irr_outb_of_isEoi heoi).1⟩
  · rw [hexec]
    exact ⟨handled, h.quiet htodo rfl rfl (P.pics.irr_outb_of_isEoi heoi).1⟩
  · rw [hexec]
    exact ⟨handled, h.quiet htodo rfl rfl rfl⟩

/-- An event that is not a key stroke types nothing. -/
lemma EchoInv.untyped (h : EchoInv k t typed handled P) :
    EchoInv k t (typed ++ []) handled P := by
  rwa [List.append_nil]

/-- Every event keeps track of the bytes. -/
theorem EchoInv.step (h : EchoInv k t typed handled P) (hservice : ServiceInv P)
    {event : PlatformEvent} (hpass : PassesVector entry event P) :
    ∃ handled', EchoInv k t (typed ++ typedBytes [event]) handled' (P.step entry event) := by
  cases event with
  | key byte => exact ⟨handled, h.key byte⟩
  | load => exact ⟨handled, h.load.untyped⟩
  | request device => exact ⟨handled, (h.of_irr (device.one_mem_irr P.pics).1).untyped⟩
  | withdraw device => exact ⟨handled, (h.of_irr (device.one_mem_irr P.pics).2).untyped⟩
  | acknowledge late c => exact ⟨handled, (h.acknowledge hservice hpass).untyped⟩
  | execute =>
    obtain ⟨handled', h'⟩ := h.execute hservice
    exact ⟨handled', h'.untyped⟩

end

/-- A run keeps track of the bytes. -/
lemma echoInv_run {entry : EntryCode} {P : Platform} (hservice : ServiceInv P) (htodo : P.todo = [])
    (hqueue : P.queue = []) (hfull : P.full = false) (hirr : 1 ∉ P.pics.master.irr)
    {events : List PlatformEvent}
    (hpass : Along (Platform.step entry) (PassesVector entry) events P) :
    ∃ handled, EchoInv P.keyboard P.terminal (typedBytes events) handled
      (runActions (Platform.step entry) events P) := by
  induction events using List.reverseRecOn with
  | nil =>
    refine ⟨[], ?_, rfl, ?_, ?_, ?_⟩
    · simp [runActions, Platform.inRegister, hfull, hqueue, typedBytes]
    · rw [runActions, htodo]
      rfl
    · rw [runActions, htodo, hfull, if_neg hirr]
      rfl
    · rw [runActions, htodo]
      exact fun hne => absurd rfl hne
  | append_singleton events event ih =>
    obtain ⟨hinitial, hlast, -⟩ := along_append.mp hpass
    obtain ⟨handled, h⟩ := ih hinitial
    have htyped : typedBytes (events ++ [event]) = typedBytes events ++ typedBytes [event] :=
      List.filterMap_append
    rw [runActions_append, htyped]
    exact h.step (hservice.run hinitial) hlast

/-! ## Everything typed is shown -/

/-- The number of lines requested at the two controllers. -/
def PicLinesPair.requests (p : PicLinesPair) : ℕ := p.master.irr.card + p.slave.irr.card

/-- The requests and bytes that wait; a byte in the queue waits to be loaded and to be served. -/
def Platform.backlog (P : Platform) : ℕ := P.pics.requests + 2 * P.queue.length

/-- How many effects an item stands for: a call of `keyboard_handler` makes for its start, the
`inb`, at most one character and one port write. -/
def Todo.cost : Todo → ℕ
  | .interrupt (.callHandler _) => 4
  | .readKeyboard => 3
  | _ => 1

lemma Todo.cost_pos (u : Todo) : 0 < u.cost := by
  unfold Todo.cost
  split <;> norm_num

/-- How many effects the running handler has left to perform. -/
def Platform.cost (P : Platform) : ℕ := (P.todo.map Todo.cost).sum

/-- The controller of the keyboard may load a byte, then the processor accepts an interrupt and runs
its handler. -/
def serviceRound (c : Cpu) : List PlatformEvent :=
  [.load, .acknowledge false c] ++ List.replicate 5 .execute

/-- The running handler ends, then a round follows for each of the contexts. -/
def serviceRounds (cs : List Cpu) : List PlatformEvent :=
  List.replicate 5 .execute ++ cs.flatMap serviceRound

lemma handlerChars_length_le (b : BitVec 8) (k : KeyboardState) :
    (handlerChars b k).length ≤ 1 := by
  have hlength := congrArg List.length (keyboardHandler_effects b k)
  have heffects : (keyboardHandler b k).2.length ≤ 2 := by
    rw [keyboardHandler]
    split
    · exact Nat.le_succ 1
    · have hpress : (handlePress b k).2.length ≤ 1 := by
        rw [handlePress]
        split_ifs <;> first | exact Nat.zero_le 1 | (dsimp only; split <;> simp)
      simpa using hpress
  simp only [List.length_append, List.length_map, List.length_singleton] at hlength
  omega

section

variable {P : Platform} {entry : EntryCode}

/-- An effect is one of those the running handler has left, and changes neither the requests nor the
queue. -/
lemma execute_cost_backlog (h : ServiceInv P) :
    P.execute.cost ≤ P.cost - 1 ∧ P.execute.backlog = P.backlog := by
  rcases P.execute_cases h.ordinary with ⟨htodo, hexec⟩ | ⟨rest, htodo, hexec⟩ |
    ⟨rest, htodo, hexec⟩ | ⟨c, rest, htodo, hexec⟩ |
    ⟨port, value, rest, heoi, htodo | htodo, hexec⟩ | ⟨rest, htodo, hexec⟩ <;>
    simp only [hexec, Platform.cost, htodo]
  · exact ⟨Nat.zero_le _, trivial⟩
  all_goals rw [List.map_cons, List.sum_cons]
  · refine ⟨?_, rfl⟩
    rw [List.map_cons, List.sum_cons]
    change 3 + _ ≤ 4 + _ - 1
    omega
  · refine ⟨?_, rfl⟩
    have hchars := handlerChars_length_le P.data P.keyboard
    have hcost : (((keyboardHandler P.data P.keyboard).2.map Todo.driver).map Todo.cost).sum =
        (handlerChars P.data P.keyboard).length + 1 := by
      rw [keyboardHandler_effects]
      simp [Todo.cost, Function.comp_def]
    rw [List.map_append, List.sum_append, hcost]
    change _ ≤ 3 + _ - 1
    omega
  · exact ⟨Nat.le_sub_of_add_le' le_rfl, rfl⟩
  · obtain ⟨hmaster, hslave⟩ := P.pics.irr_outb_of_isEoi heoi
    refine ⟨Nat.le_sub_of_add_le' le_rfl, ?_⟩
    rw [Platform.backlog, Platform.backlog, PicLinesPair.requests, PicLinesPair.requests, hmaster,
      hslave]
  · obtain ⟨hmaster, hslave⟩ := P.pics.irr_outb_of_isEoi heoi
    refine ⟨Nat.le_sub_of_add_le' le_rfl, ?_⟩
    rw [Platform.backlog, Platform.backlog, PicLinesPair.requests, PicLinesPair.requests, hmaster,
      hslave]
  · exact ⟨Nat.le_sub_of_add_le' le_rfl, rfl⟩

/-- The running handler ends after as many effects as it has left. -/
lemma run_execute (h : ServiceInv P) {n : ℕ} (hcost : P.cost ≤ n) {Q : Platform}
    (hQ : Q = runActions (Platform.step entry) (List.replicate n .execute) P) :
    Q.todo = [] ∧ Q.backlog = P.backlog := by
  induction n generalizing P with
  | zero =>
    rw [List.replicate_zero, runActions] at hQ
    subst hQ
    refine ⟨?_, rfl⟩
    cases htodo : Q.todo with
    | nil => rfl
    | cons u rest =>
      rw [Platform.cost, htodo, List.map_cons, List.sum_cons] at hcost
      have hpos := u.cost_pos
      omega
  | succ n ih =>
    obtain ⟨hless, hsame⟩ := execute_cost_backlog h
    rw [List.replicate_succ, runActions] at hQ
    obtain ⟨htodo, hbacklog⟩ := ih h.execute (by omega) hQ
    exact ⟨htodo, hbacklog.trans hsame⟩

/-- The handler that an acknowledgement starts is short. -/
lemma cost_lineTodo_le (m : Fin 16) : ((lineTodo m).map Todo.cost).sum ≤ 5 := by
  rw [lineTodo]
  split_ifs <;> decide

/-- A running handler has at most five effects left. -/
lemma cost_step_le (h : ServiceInv P) (hcost : P.cost ≤ 5) {event : PlatformEvent}
    (hpass : PassesVector entry event P) : (P.step entry event).cost ≤ 5 := by
  cases event with
  | key byte => exact hcost
  | load =>
    change P.load.cost ≤ 5
    rw [Platform.load]
    split
    · exact hcost
    · split <;> exact hcost
  | request device => exact hcost
  | withdraw device => exact hcost
  | acknowledge late c =>
    change (P.acknowledge entry late c).cost ≤ 5
    by_cases htodo : P.todo = []
    · obtain ⟨m, hvector, -, -⟩ :=
        PicLinesPair.acknowledge_idle h.pair (h.eligible htodo).1 late
      rw [h.acknowledge_eq htodo hpass hvector]
      exact cost_lineTodo_le m
    · rw [Platform.acknowledge_of_running _ _ _ htodo]
      exact hcost
  | execute =>
    have hless := (execute_cost_backlog h).1
    change P.execute.cost ≤ 5
    omega

end

/-- An acknowledgement takes a request, if there is one. -/
lemma PicLinesPair.requests_acknowledge {p : PicLinesPair} (hpair : p.toPair = remapped)
    (hidle : p.Idle) : (p.acknowledge false).1.requests ≤ p.requests - 1 := by
  obtain ⟨hmaster, hslave⟩ := vector_ne_none hpair
  obtain ⟨hoffer, hwinner⟩ := winner_of_idle hmaster hslave hidle
  rcases acknowledge_cases false p with ⟨hnone, h⟩ | ⟨n, hwin, hn, h⟩ | ⟨k, -, -, hk, h⟩ |
    ⟨hwin, hgone, h⟩ <;> rw [h] <;> simp only [requests]
  · -- no winner: nothing is requested
    rw [hwinner, highest_eq_none_iff] at hnone
    split at hnone
    · rename_i hempty
      rw [hnone, hempty]
      exact Nat.zero_le _
    · exact absurd hnone (Finset.insert_ne_empty _ _)
  · have hcard := Finset.card_erase_add_one (mem_irr_of_winner hwin hn)
    change (p.master.irr.erase n).card + p.slave.irr.card ≤ _
    omega
  · rw [hoffer] at hk
    have hcard := Finset.card_erase_add_one (mem_of_highest hk)
    have hle := Finset.card_erase_le (s := p.master.irr) (a := 2)
    change (p.master.irr.erase 2).card + (p.slave.irr.erase k).card ≤ _
    omega
  · -- line 2 without a line of the slave: it was requested by itself
    have hgone' := hgone.resolve_left Bool.false_ne_true
    rw [hoffer, highest_eq_none_iff] at hgone'
    rw [hwinner, if_pos hgone'] at hwin
    have hcard := Finset.card_erase_add_one (mem_of_highest hwin)
    change (p.master.irr.erase 2).card + p.slave.irr.card ≤ _
    omega

/-- What is known of every reachable platform. -/
structure Tracked (P : Platform) : Prop where
  service : ServiceInv P
  cost : P.cost ≤ 5
  echo : ∃ k t typed handled, EchoInv k t typed handled P

section

variable {P : Platform} {entry : EntryCode}

lemma Tracked.step (h : Tracked P) {event : PlatformEvent} (hpass : PassesVector entry event P) :
    Tracked (P.step entry event) := by
  obtain ⟨k, t, typed, handled, hecho⟩ := h.echo
  obtain ⟨handled', hecho'⟩ := hecho.step h.service hpass
  exact ⟨h.service.step hpass, cost_step_le h.service h.cost hpass, k, t, _, handled', hecho'⟩

lemma Tracked.run (h : Tracked P) {events : List PlatformEvent}
    (hpass : Along (Platform.step entry) (PassesVector entry) events P) :
    Tracked (runActions (Platform.step entry) events P) :=
  hpass.invariant h fun _ _ hP hok => hP.step hok

/-- When no handler runs, the data register is full exactly when line 1 is requested. -/
lemma Tracked.full_iff (h : Tracked P) (htodo : P.todo = []) :
    P.full = true ↔ 1 ∈ P.pics.master.irr := by
  obtain ⟨k, t, typed, handled, hecho⟩ := h.echo
  have hreads := hecho.reads
  rw [htodo] at hreads
  by_cases hfull : P.full = true <;> by_cases hirr : 1 ∈ P.pics.master.irr <;>
    simp [hfull, hirr] at hreads ⊢

/-- After the controller of the keyboard has had its chance, a request waits or nothing does. -/
lemma Tracked.load (h : Tracked P) (htodo : P.todo = []) :
    P.load.todo = [] ∧ P.load.backlog ≤ P.backlog ∧
      (P.load.pics.requests = 0 → P.load.queue = []) := by
  have hfull := h.full_iff htodo
  rw [Platform.load]
  split
  · rename_i hqueue
    exact ⟨htodo, le_rfl, fun _ => hqueue⟩
  · rename_i byte rest hqueue
    split
    · rename_i hregister
      refine ⟨htodo, le_rfl, fun hnone => ?_⟩
      have hpos := Finset.card_pos.mpr ⟨1, hfull.mp hregister⟩
      rw [PicLinesPair.requests] at hnone
      omega
    · rename_i hregister
      rw [hfull] at hregister
      have hcard := Finset.card_insert_of_notMem hregister
      have hrequests : P.pics.requestKeyboard.requests = P.pics.requests + 1 := by
        rw [PicLinesPair.requests, PicLinesPair.requests]
        change (insert 1 P.pics.master.irr).card + P.pics.slave.irr.card = _
        omega
      refine ⟨htodo, ?_, fun hnone => ?_⟩
      · rw [Platform.backlog, Platform.backlog, hqueue, List.length_cons]
        dsimp only
        omega
      · dsimp only at hnone
        omega

/-- A round lowers the backlog. -/
lemma Tracked.serviceRound (h : Tracked P) (htodo : P.todo = []) {c : Cpu}
    (hpass : Along (Platform.step entry) (PassesVector entry) (serviceRound c) P) {Q : Platform}
    (hQ : Q = runActions (Platform.step entry) (serviceRound c) P) :
    Q.todo = [] ∧ Q.backlog ≤ P.backlog - 1 := by
  obtain ⟨hltodo, hle, hzero⟩ := h.load htodo
  have hload : Tracked P.load := h.step hpass.1
  have hpass' : PassesVector entry (.acknowledge false c) P.load := hpass.2.1
  have hack : Tracked (P.load.acknowledge entry false c) := hload.step hpass'
  have hidle := (hload.service.eligible hltodo).1
  obtain ⟨m, hvector, -, -⟩ := PicLinesPair.acknowledge_idle hload.service.pair hidle false
  have htakes := PicLinesPair.requests_acknowledge hload.service.pair hidle
  have hexec := run_execute hack.service hack.cost hQ
  refine ⟨hexec.1, ?_⟩
  rw [hexec.2, hload.service.acknowledge_eq hltodo hpass' hvector, Platform.backlog]
  rw [Platform.backlog] at hle
  dsimp only
  by_cases hnone : P.load.pics.requests = 0
  · -- nothing waits, and the acknowledgement is a spurious one
    rw [hzero hnone]
    rw [hzero hnone] at hle
    simp only [List.length_nil] at hle ⊢
    omega
  · omega

/-- Enough rounds leave nothing waiting. -/
lemma Tracked.serviceRounds (h : Tracked P) (htodo : P.todo = []) {cs : List Cpu}
    (hpass : Along (Platform.step entry) (PassesVector entry)
      (cs.flatMap VVBright.serviceRound) P) (hcs : P.backlog ≤ cs.length) {Q : Platform}
    (hQ : Q = runActions (Platform.step entry) (cs.flatMap VVBright.serviceRound) P) :
    Q.todo = [] ∧ Q.backlog = 0 := by
  induction cs generalizing P with
  | nil =>
    rw [List.flatMap_nil, runActions] at hQ
    rw [List.length_nil] at hcs
    subst hQ
    exact ⟨htodo, Nat.le_zero.mp hcs⟩
  | cons c cs ih =>
    rw [List.flatMap_cons] at hpass hQ
    rw [runActions_append] at hQ
    rw [List.length_cons] at hcs
    obtain ⟨hround, hrest⟩ := along_append.mp hpass
    obtain ⟨htodo', hless⟩ := h.serviceRound htodo hround rfl
    exact ih (h.run hround) htodo' hrest (by omega) hQ

end

/-- Serving interrupts types nothing. -/
lemma typedBytes_append_serviceRounds (events : List PlatformEvent) (cs : List Cpu) :
    typedBytes (events ++ serviceRounds cs) = typedBytes events := by
  have hrounds : typedBytes (cs.flatMap serviceRound) = [] := by
    induction cs with
    | nil => rfl
    | cons c cs ih =>
      rw [List.flatMap_cons]
      exact ih
  rw [typedBytes, List.filterMap_append]
  refine (congrArg _ ?_).trans (List.append_nil _)
  rw [serviceRounds, List.filterMap_append]
  exact hrounds

/-- **What is typed is shown, in order and once.**  After `interrupts_init` and `keyboard_init`, for
every interleaving of key strokes with the requests of devices on other lines than the keyboard's
and the cascade, acknowledgements and single effects of the handlers, in which the stubs call
`interrupt_handler` with the vector of the interrupt, that is, the word pushed for `GS` is the
vector: the bytes typed so far are those handled, the one in the data register and the queue, in
this order, and the driver and the terminal are where the handled bytes bring them, up to what is
left to print.  And if from then on the keyboard's controller, the processor and the handlers get
their turns, as many rounds as `Platform.backlog` counts bring everything typed to the screen. -/
theorem typedBytes_are_echoed (wide : Bool) (link : KernelLink) (pics : PicLinesPair)
    (tables : InterruptState KernelHandler) (keyboard : KeyboardState) (terminal : TerminalState)
    (data : BitVec 8) (events : List PlatformEvent) (cs : List Cpu)
    (hcs : (runActions (Platform.step (stubEntry wide)) events
      (Platform.boot link pics tables keyboard terminal data)).backlog ≤ cs.length)
    (hentry : Along (Platform.step (stubEntry wide)) (PassesVector (stubEntry wide))
      (events ++ serviceRounds cs) (Platform.boot link pics tables keyboard terminal data)) :
    let start := Platform.boot link pics tables keyboard terminal data
    let P := runActions (Platform.step (stubEntry wide)) events start
    let Q := runActions (Platform.step (stubEntry wide)) (events ++ serviceRounds cs) start
    (∃ handled, typedBytes events = handled ++ P.inRegister ++ P.queue ∧
      P.keyboard = (printRun start.keyboard handled).1 ∧
      putchars (P.todo.flatMap Todo.chars) P.terminal =
        putchars (printRun start.keyboard handled).2 terminal) ∧
    Q.queue = [] ∧ Q.full = false ∧ Q.todo = [] ∧
      Q.keyboard = (printRun start.keyboard (typedBytes events)).1 ∧
      Q.terminal = putchars (printRun start.keyboard (typedBytes events)).2 terminal := by
  intro start P Q
  have hservice : ServiceInv start := serviceInv_boot link pics tables keyboard terminal data
  obtain ⟨hevents, hrounds⟩ := along_append.mp hentry
  obtain ⟨hends, hserves⟩ := along_append.mp hrounds
  -- the first initialisation word has cleared the requests
  have hecho : ∀ as, Along (Platform.step (stubEntry wide)) (PassesVector (stubEntry wide)) as
      start → ∃ handled, EchoInv start.keyboard terminal (typedBytes as) handled
        (runActions (Platform.step (stubEntry wide)) as start) :=
    fun _ has => echoInv_run hservice rfl rfl rfl (Finset.notMem_empty _) has
  have hstart : Tracked start := by
    obtain ⟨handled, h⟩ := hecho [] trivial
    exact ⟨hservice, Nat.zero_le _, _, _, _, handled, h⟩
  obtain ⟨handled, hP⟩ := hecho _ hevents
  have htracked : Tracked P := hstart.run hevents
  refine ⟨⟨handled, hP.bytes, hP.driver, hP.screen⟩, ?_⟩
  obtain ⟨hidle, hsame⟩ := run_execute htracked.service htracked.cost rfl
  obtain ⟨htodo, hbacklog⟩ := (htracked.run hends).serviceRounds hidle hserves
    (hsame.le.trans hcs) (Q := Q) (by
      change runActions _ (events ++ serviceRounds cs) start = _
      rw [serviceRounds, runActions_append, runActions_append])
  obtain ⟨handled', hQ⟩ := hecho _ hentry
  have hdone : Tracked Q := hstart.run hentry
  rw [typedBytes_append_serviceRounds] at hQ
  rw [Platform.backlog, PicLinesPair.requests] at hbacklog
  have hqueue : Q.queue = [] := List.length_eq_zero_iff.mp (by omega)
  have hirr : Q.pics.master.irr = ∅ := Finset.card_eq_zero.mp (by omega)
  have hfull : Q.full = false := by
    rw [← Bool.not_eq_true, hdone.full_iff htodo, hirr]
    exact Finset.notMem_empty _
  have hall : typedBytes events = handled' := by
    have hbytes := hQ.bytes
    change _ = handled' ++ Q.inRegister ++ Q.queue at hbytes
    rw [hqueue, Platform.inRegister, hfull] at hbytes
    rw [hbytes]
    simp
  have hscreen := hQ.screen
  change putchars (Q.todo.flatMap Todo.chars) Q.terminal = _ at hscreen
  rw [htodo] at hscreen
  rw [hall]
  exact ⟨hqueue, hfull, htodo, hQ.driver, hscreen⟩

/-- Only an acknowledgement calls `interrupt_handler`. -/
lemma along_passesVector_of_quiet (entry : EntryCode) {events : List PlatformEvent}
    (h : ∀ event ∈ events, ∀ late c, event ≠ .acknowledge late c) (P : Platform) :
    Along (Platform.step entry) (PassesVector entry) events P := by
  refine ((along_actions _ events P).mpr h).mono fun event Q hquiet => ?_
  cases event with
  | acknowledge late c => exact absurd rfl (hquiet late c)
  | _ => trivial

/-- The kernel, interrupted with a selector in `GS`. -/
def contextWithGs (sel : BitVec 16) : Cpu := { kernelContext with segs := fun _ => sel }

/-- The letter `a` is typed, and once everything has had its turn it stands on the screen.  The
first round finds the vector of the keyboard in `GS`, the second that of the spurious interrupt it
accepts. -/
theorem typedBytes_are_echoed_letter :
    (runActions (Platform.step (stubEntry true)) ([.key 0x1E#8] ++
      serviceRounds [contextWithGs 0x21#16, contextWithGs 0x27#16]) blankPlatform).terminal =
      putchars [0x61#8] ⟨0, 0, 7, fun _ => 0⟩ := by
  obtain ⟨c₁, hc₁⟩ : ∃ c, c = contextWithGs 0x21#16 := ⟨_, rfl⟩
  obtain ⟨c₂, hc₂⟩ : ∃ c, c = contextWithGs 0x27#16 := ⟨_, rfl⟩
  -- the first round accepts line 1, the second finds nothing requested
  have hkeyboard : ((runActions (Platform.step (stubEntry true))
      ([PlatformEvent.key 0x1E#8] ++ List.replicate 5 PlatformEvent.execute ++
        [PlatformEvent.load]) blankPlatform).pics.acknowledge false).2 = 0x21#8 := by
    decide
  have hspurious : ((runActions (Platform.step (stubEntry true))
      ([PlatformEvent.key 0x1E#8] ++ List.replicate 5 PlatformEvent.execute ++
        [PlatformEvent.load] ++ [PlatformEvent.acknowledge false c₁] ++
        (List.replicate 5 PlatformEvent.execute ++ [PlatformEvent.load]))
      blankPlatform).pics.acknowledge false).2 = 0x27#8 := by
    rw [hc₁]
    decide +kernel
  have hentry : Along (Platform.step (stubEntry true)) (PassesVector (stubEntry true))
      ([PlatformEvent.key 0x1E#8] ++ List.replicate 5 PlatformEvent.execute ++
        [PlatformEvent.load] ++ [PlatformEvent.acknowledge false c₁] ++
        (List.replicate 5 PlatformEvent.execute ++ [PlatformEvent.load]) ++
        [PlatformEvent.acknowledge false c₂] ++ List.replicate 5 PlatformEvent.execute)
      blankPlatform := by
    refine along_append.mpr ⟨along_append.mpr ⟨along_append.mpr ⟨along_append.mpr ⟨?_, ?_, ?_⟩,
      ?_⟩, ?_, ?_⟩, ?_⟩
    · exact along_passesVector_of_quiet _ (by simp) _
    · intro _
      rw [hkeyboard, stubEntry, hc₁]
      rfl
    · trivial
    · exact along_passesVector_of_quiet _ (by simp) _
    · intro _
      rw [hspurious, stubEntry, hc₂]
      rfl
    · trivial
    · exact along_passesVector_of_quiet _ (by simp) _
  rw [← hc₁, ← hc₂]
  have hbacklog : (runActions (Platform.step (stubEntry true)) [.key 0x1E#8]
      blankPlatform).backlog ≤ [c₁, c₂].length := by
    rw [List.length_cons, List.length_singleton]
    decide
  obtain ⟨-, -, -, -, -, hscreen⟩ := typedBytes_are_echoed true _ _ _ _ _ _ [.key 0x1E#8] [c₁, c₂]
    hbacklog hentry
  exact hscreen

end VVBright
