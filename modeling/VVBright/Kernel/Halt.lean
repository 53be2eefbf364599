import VVBright.Interrupts.Vectors
import VVBright.Kernel.Echo

/-!
# The first interrupt under the stubs

The stubs hand `interrupt_handler` the word pushed for `GS` in place of the vector (`stubEntry`).
The selector of a data segment near the start of the descriptor table, such as `0x10`, is then taken
for the number of an exception, and no handler is installed for it: the kernel reports an exception
and halts, whatever line the interrupt came from.

`stubs_halt_on_first_interrupt` describes such a run completely.  Up to the first acknowledged
interrupt nothing happens but that requests and bytes pile up.  From then on the effects of the
exception branch are performed one by one, and after five of them the processor stays in the `hlt`
loop: no key is ever read, and no end of interrupt is ever sent.
-/

namespace VVBright

open Traced

/-- What an effect of `interrupt_handler` does to the terminal. -/
def InterruptEffect.onTerminal (t : TerminalState) : InterruptEffect KernelHandler → TerminalState
  | .setcolor color => (terminalSetcolor (color.setWidth 32)).exec t
  | .writestring text => (terminalWritestring (messageBytes text)).exec t
  | _ => t

/-- How often the running handler is given a turn. -/
def turns (events : List PlatformEvent) : ℕ :=
  events.countP fun
    | .execute => true
    | _ => false

/-- The event is an accepted interrupt. -/
def PlatformEvent.IsAcknowledge : PlatformEvent → Prop
  | .acknowledge _ _ => True
  | _ => False

/-- The bytes that are waiting. -/
def Platform.waiting (P : Platform) : List (BitVec 8) := P.inRegister ++ P.queue

/-- Loading a byte does not change which bytes are waiting, nor what is in service. -/
lemma Platform.load_spec (P : Platform) :
    P.load.waiting = P.waiting ∧ PicLinesPair.SameService P.load.pics P.pics ∧
      P.load.todo = P.todo ∧ P.load.keyboard = P.keyboard ∧ P.load.terminal = P.terminal ∧
      P.load.tables = P.tables := by
  rw [Platform.load]
  split
  · exact ⟨rfl, ⟨rfl, rfl⟩, rfl, rfl, rfl, rfl⟩
  · rename_i byte rest hqueue
    split
    · exact ⟨rfl, ⟨rfl, rfl⟩, rfl, rfl, rfl, rfl⟩
    · rename_i hfull
      refine ⟨?_, ⟨rfl, rfl⟩, rfl, rfl, rfl, rfl⟩
      simp [Platform.waiting, Platform.inRegister, hqueue, hfull]

/-- The platform `P` differs from `start` by `n` effects of the exception branch, by the bytes
`typed`, and by requests. -/
structure HaltInv (message : String) (start : Platform) (n : ℕ) (typed : List (BitVec 8))
    (P : Platform) : Prop where
  todo : P.todo = ((exceptionEffects message).drop (min n 5)).map .interrupt ++ [.iret]
  terminal : P.terminal =
    ((exceptionEffects message).take (min n 5)).foldl InterruptEffect.onTerminal start.terminal
  keyboard : P.keyboard = start.keyboard
  waiting : P.waiting = start.waiting ++ typed
  service : PicLinesPair.SameService P.pics start.pics

section

variable {message : String} {start P : Platform} {n : ℕ} {typed : List (BitVec 8)}

/-- The effects before the `hlt` loop change the terminal alone. -/
lemma Platform.execute_report {e : InterruptEffect KernelHandler} {rest : List Todo}
    (htodo : P.todo = .interrupt e :: rest) (he : e ∈ (exceptionEffects message).take 5) :
    P.execute = { P with todo := rest, terminal := e.onTerminal P.terminal } := by
  simp only [exceptionEffects, List.take_succ_cons, List.take_zero, List.mem_cons,
    List.not_mem_nil, or_false] at he
  rcases he with rfl | rfl | rfl | rfl | rfl <;> rw [Platform.execute, htodo] <;>
    simp only [InterruptEffect.onTerminal]

/-- A turn performs the next effect, and does nothing once the `hlt` loop is reached. -/
lemma HaltInv.execute (h : HaltInv message start n typed P) :
    HaltInv message start (n + 1) typed P.execute := by
  obtain ⟨htodo, hterminal, hkeyboard, hwaiting, hservice⟩ := h
  have hlength : (exceptionEffects (H := KernelHandler) message).length = 6 := rfl
  by_cases hn : n < 5
  · have hlt : n < (exceptionEffects (H := KernelHandler) message).length := by omega
    rw [min_eq_left hn.le] at htodo hterminal
    rw [List.drop_eq_getElem_cons hlt, List.map_cons, List.cons_append] at htodo
    have hmem : (exceptionEffects (H := KernelHandler) message)[n] ∈
        (exceptionEffects message).take 5 :=
      List.mem_take_iff_getElem.mpr ⟨n, by omega, rfl⟩
    rw [P.execute_report htodo hmem]
    refine ⟨?_, ?_, hkeyboard, hwaiting, hservice⟩ <;> rw [min_eq_left (by omega : n + 1 ≤ 5)]
    dsimp only
    rw [List.take_succ_eq_append_getElem hlt, List.foldl_append, ← hterminal, List.foldl_cons,
      List.foldl_nil]
  · have hmin : min n 5 = 5 := by omega
    have hmin' : min (n + 1) 5 = 5 := by omega
    rw [hmin] at htodo hterminal
    have hloop : P.execute = P := by rw [Platform.execute, htodo]; rfl
    rw [hloop]
    refine ⟨?_, ?_, hkeyboard, hwaiting, hservice⟩ <;> rw [hmin']
    · exact htodo
    · exact hterminal

/-- Every event. -/
lemma HaltInv.step (h : HaltInv message start n typed P) (entry : EntryCode)
    (event : PlatformEvent) : HaltInv message start (n + turns [event])
      (typed ++ typedBytes [event]) (P.step entry event) := by
  have hnil : typed ++ [] = typed := List.append_nil typed
  cases event with
  | key byte =>
    refine ⟨h.todo, h.terminal, h.keyboard, ?_, h.service⟩
    change P.inRegister ++ (P.queue ++ [byte]) = start.waiting ++ (typed ++ [byte])
    rw [← List.append_assoc, ← List.append_assoc, ← h.waiting]
    rfl
  | load =>
    obtain ⟨hwaiting, hsame, htodo, hkeyboard, hterminal, -⟩ := P.load_spec
    refine ⟨htodo.trans h.todo, hterminal.trans h.terminal, hkeyboard.trans h.keyboard, ?_,
      hsame.1.trans h.service.1, hsame.2.trans h.service.2⟩
    exact (hwaiting.trans h.waiting).trans (congrArg _ hnil.symm)
  | request device =>
    obtain ⟨⟨hsame, -⟩, -⟩ := device.sameService P.pics
    exact ⟨h.todo, h.terminal, h.keyboard, h.waiting.trans (congrArg _ hnil.symm),
      hsame.1.trans h.service.1, hsame.2.trans h.service.2⟩
  | withdraw device =>
    obtain ⟨-, hsame, -⟩ := device.sameService P.pics
    exact ⟨h.todo, h.terminal, h.keyboard, h.waiting.trans (congrArg _ hnil.symm),
      hsame.1.trans h.service.1, hsame.2.trans h.service.2⟩
  | acknowledge late c =>
    have hrunning : P.todo ≠ [] := by
      rw [h.todo]
      exact List.append_ne_nil_of_right_ne_nil _ (List.cons_ne_nil _ _)
    change HaltInv message start n (typed ++ []) (P.acknowledge entry late c)
    rw [Platform.acknowledge_of_running _ _ _ hrunning, hnil]
    exact h
  | execute =>
    change HaltInv message start (n + 1) (typed ++ []) P.execute
    rw [hnil]
    exact h.execute

/-- The bytes of the first event and of the others. -/
lemma typedBytes_cons (event : PlatformEvent) (events : List PlatformEvent) :
    typedBytes (event :: events) = typedBytes [event] ++ typedBytes events := by
  change typedBytes ([event] ++ events) = _
  exact List.filterMap_append

/-- Every run. -/
lemma HaltInv.run (h : HaltInv message start n typed P) (entry : EntryCode)
    (events : List PlatformEvent) : HaltInv message start (n + turns events)
      (typed ++ typedBytes events) (runActions (Platform.step entry) events P) := by
  induction events generalizing P n typed with
  | nil =>
    rw [typedBytes, List.filterMap_nil, List.append_nil]
    exact h
  | cons event events ih =>
    have hturns : turns ([event] ++ events) = turns [event] + turns events := List.countP_append
    change HaltInv _ _ (n + turns ([event] ++ events)) _ _
    rw [hturns, typedBytes_cons, ← Nat.add_assoc, ← List.append_assoc]
    exact ih (h.step entry event)

/-- Before the first interrupt is accepted, only bytes and requests come in. -/
lemma run_before_acknowledge (entry : EntryCode) (htodo : P.todo = [])
    {before : List PlatformEvent} (hbefore : ∀ e ∈ before, ¬ e.IsAcknowledge) {Q : Platform}
    (hQ : Q = runActions (Platform.step entry) before P) :
    Q.todo = [] ∧ Q.keyboard = P.keyboard ∧ Q.terminal = P.terminal ∧ Q.tables = P.tables ∧
      Q.waiting = P.waiting ++ typedBytes before := by
  induction before generalizing P with
  | nil =>
    rw [runActions] at hQ
    subst hQ
    exact ⟨htodo, rfl, rfl, rfl, (List.append_nil _).symm⟩
  | cons event before ih =>
    obtain ⟨hevent, hrest⟩ := List.forall_mem_cons.mp hbefore
    -- one event, which is not an acknowledgement
    have hone : (P.step entry event).todo = [] ∧ (P.step entry event).keyboard = P.keyboard ∧
        (P.step entry event).terminal = P.terminal ∧ (P.step entry event).tables = P.tables ∧
        (P.step entry event).waiting = P.waiting ++ typedBytes [event] := by
      cases event with
      | key byte => exact ⟨htodo, rfl, rfl, rfl, (List.append_assoc _ _ _).symm⟩
      | load =>
        obtain ⟨hwaiting, -, hload, hkeyboard, hterminal, htables⟩ := P.load_spec
        exact ⟨hload.trans htodo, hkeyboard, hterminal, htables,
          hwaiting.trans (List.append_nil _).symm⟩
      | request device => exact ⟨htodo, rfl, rfl, rfl, (List.append_nil _).symm⟩
      | withdraw device => exact ⟨htodo, rfl, rfl, rfl, (List.append_nil _).symm⟩
      | acknowledge late c => exact absurd trivial hevent
      | execute =>
        change P.execute.todo = [] ∧ P.execute.keyboard = P.keyboard ∧
          P.execute.terminal = P.terminal ∧ P.execute.tables = P.tables ∧
          P.execute.waiting = P.waiting ++ []
        have hexec : P.execute = P := by rw [Platform.execute, htodo]
        rw [hexec, List.append_nil]
        exact ⟨htodo, rfl, rfl, rfl, rfl⟩
    obtain ⟨htodo', hkeyboard, hterminal, htables, hwaiting⟩ := hone
    obtain ⟨hQtodo, hQkeyboard, hQterminal, hQtables, hQwaiting⟩ := ih htodo' hrest hQ
    refine ⟨hQtodo, hQkeyboard.trans hkeyboard, hQterminal.trans hterminal,
      hQtables.trans htables, ?_⟩
    rw [hQwaiting, hwaiting, typedBytes_cons event before, List.append_assoc]

end

/-- **The first interrupt halts the kernel.**  After `interrupts_init` and `keyboard_init` with the
stubs as they are, let the first accepted interrupt, from whatever line, find a context in which the
word pushed for `GS` is below 20.  Whatever happens before and after it: every byte typed is still
waiting, the driver has not run, no end of interrupt has been sent, and the effects of the exception
branch have been performed up to the number of turns the handler has had, five at most, after which
the processor is in the `hlt` loop. -/
theorem stubs_halt_on_first_interrupt (wide : Bool) (link : KernelLink) (pics : PicLinesPair)
    (tables : InterruptState KernelHandler) (keyboard : KeyboardState) (terminal : TerminalState)
    (data : BitVec 8) {before : List PlatformEvent} (hbefore : ∀ e ∈ before, ¬ e.IsAcknowledge)
    (late : Bool) {c : Cpu} (hc : (gsWord wide c).toNat < 20) (after : List PlatformEvent) :
    let start := Platform.boot link pics tables keyboard terminal data
    let Q := runActions (Platform.step (stubEntry wide)) before start
    let P := runActions (Platform.step (stubEntry wide)) (before ++ .acknowledge late c :: after)
      start
    let effects : List (InterruptEffect KernelHandler) :=
      exceptionEffects (exceptionMessage (gsWord wide c).toNat)
    P.waiting = typedBytes (before ++ .acknowledge late c :: after) ∧
      P.keyboard = start.keyboard ∧
      PicLinesPair.SameService P.pics (Q.pics.acknowledge late).1 ∧
      P.todo = (effects.drop (min (turns after) 5)).map .interrupt ++ [.iret] ∧
      P.terminal =
        (effects.take (min (turns after) 5)).foldl InterruptEffect.onTerminal terminal := by
  intro start Q P effects
  obtain ⟨htodo, hkeyboard, hterminal, htables, hwaiting⟩ :=
    run_before_acknowledge (stubEntry wide) (P := start) rfl hbefore rfl
  have hnone : Q.tables.handlers ((gsWord wide c).setWidth 8) = none := by
    rw [show Q.tables = start.tables from htables,
      (serviceInv_boot link pics tables keyboard terminal data).handlers]
    refine if_neg fun heq => ?_
    have hnat := congrArg BitVec.toNat heq
    have hirq : (irqVector 1).toNat = 33 := rfl
    rw [hirq, BitVec.toNat_setWidth] at hnat
    omega
  have henter : Q.enterHandler (stubEntry wide (Q.pics.acknowledge late).2 c) =
      effects.map .interrupt ++ [.iret] := by
    rw [Platform.enterHandler, stubEntry, interruptHandler_exception hc hnone]
  -- the state right after the acknowledgement
  have hack : Q.acknowledge (stubEntry wide) late c =
      { Q with
        pics := (Q.pics.acknowledge late).1
        todo := effects.map .interrupt ++ [.iret] } := by
    rw [Platform.acknowledge, show Q.todo = [] from htodo]
    dsimp only
    rw [henter]
  have hhalt : HaltInv (exceptionMessage (gsWord wide c).toNat)
      (Q.acknowledge (stubEntry wide) late c) 0 [] (Q.acknowledge (stubEntry wide) late c) := by
    rw [hack]
    exact ⟨rfl, rfl, rfl, (List.append_nil _).symm, rfl, rfl⟩
  have hP : P = runActions (Platform.step (stubEntry wide)) after
      (Q.acknowledge (stubEntry wide) late c) := runActions_append _ _ _ _
  obtain ⟨hPtodo, hPterminal, hPkeyboard, hPwaiting, hPservice⟩ :=
    hhalt.run (stubEntry wide) after
  rw [← hP, Nat.zero_add] at hPtodo hPterminal
  rw [← hP] at hPkeyboard hPwaiting hPservice
  rw [hack] at hPterminal hPkeyboard hPwaiting hPservice
  have hbytes : typedBytes (before ++ .acknowledge late c :: after) =
      typedBytes before ++ typedBytes after := List.filterMap_append
  refine ⟨?_, hPkeyboard.trans hkeyboard, hPservice, hPtodo, ?_⟩
  · rw [hPwaiting, hbytes, List.nil_append]
    exact congrArg (· ++ _) hwaiting
  · rw [hPterminal]
    exact congrArg (List.foldl InterruptEffect.onTerminal · _) hterminal

/-- The letter `a` is typed, the interrupt of the keyboard accepted in the running kernel, and the
letter `b` typed while the handler runs: neither byte is read. -/
theorem stubs_halt_on_first_key :
    (runActions (Platform.step (stubEntry true))
      ([.key 0x1E#8, .load] ++ .acknowledge false kernelContext :: [.execute, .key 0x30#8, .load])
      blankPlatform).waiting = [0x1E#8, 0x30#8] := by
  have hc : (gsWord true kernelContext).toNat < 20 := by
    rw [show gsWord true kernelContext = 0x10#32 from rfl]
    decide
  have hbefore : ∀ e ∈ [PlatformEvent.key 0x1E#8, .load], ¬ e.IsAcknowledge := by
    intro e he
    simp only [List.mem_cons, List.not_mem_nil, or_false] at he
    rcases he with rfl | rfl <;> exact not_false
  exact (stubs_halt_on_first_interrupt true _ _ _ _ _ _ hbefore false hc _).1

end VVBright
