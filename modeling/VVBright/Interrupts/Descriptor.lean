import VVBright.Interrupts.Vectors
import VVBright.Terminal.Screen

/-!
# The descriptor table in memory

The processor knows nothing of `idt_entry_t`: it reads eight bytes of memory at the address in its
descriptor table register.  Here `idt_set_gate` is its five stores to the members of a packed
record, `idt_ptr` is six bytes that `lidt` reads, and the processor decodes what it finds by the
format of an interrupt gate.  `interruptsInitMem` is all that `interrupts_init` does to memory: it
also clears the pointers of `interrupt_handlers` and prints two messages, which changes the screen
and the cursor.  Its own stack is left out.

`fetchDescriptor_eq_fetchGate` says that this is faithful to the tables of `Interrupts.State`: the
processor finds for every vector the gate that the table of records has, whatever was in memory
before, no handler is installed, and nothing but these variables and the screen is written to.
-/

namespace VVBright

variable {H : Type}

/-! ## Records and bytes -/

/-- An offset from an address. -/
def offsetBy (a : BitVec 32) (i : ℕ) : BitVec 32 := a + BitVec.ofNat 32 i

/-- The address of an entry of the descriptor table at `idt`. -/
def gateAddr (idt : BitVec 32) (num : BitVec 8) : BitVec 32 := offsetBy idt (8 * num.toNat)

/-- The bytes of the descriptor table at `idt`. -/
def tableBytes (idt : BitVec 32) : Region := ⟨idt, 2048⟩

/-- Where the linker puts the variables that `interrupts_init` writes to.  They are apart from each
other and from the screen. -/
structure InterruptsLink extends KernelLink, TerminalLink where
  idtPtr : BitVec 32
  interruptHandlers : BitVec 32
  idt_apart : ∀ r ∈ ⟨idtPtr, 6⟩ :: ⟨interruptHandlers, 1024⟩ :: toTerminalLink.regions,
    (tableBytes idt).Apart r
  idtPtr_apart : ∀ r ∈ ⟨interruptHandlers, 1024⟩ :: toTerminalLink.regions,
    Region.Apart ⟨idtPtr, 6⟩ r
  handlers_apart : ∀ r ∈ toTerminalLink.regions, Region.Apart ⟨interruptHandlers, 1024⟩ r

namespace InterruptsLink

variable (L : InterruptsLink)

/-- The bytes of `idt`. -/
def table : Region := tableBytes L.idt

/-- The bytes of `idt_ptr`. -/
def pointer : Region := ⟨L.idtPtr, 6⟩

/-- The bytes of `interrupt_handlers`. -/
def handlers : Region := ⟨L.interruptHandlers, 1024⟩

/-- The address of a pointer of `interrupt_handlers`. -/
def handlerAddr (i : ℕ) : BitVec 32 := offsetBy L.interruptHandlers (4 * i)

/-- Everything that `interrupts_init` writes to: its tables, the cursor and the screen. -/
def written : List Region :=
  [L.table, L.pointer, L.handlers, .word L.terminalRow, .word L.terminalColumn, textMemory]

end InterruptsLink

/-- A call of `idt_set_gate`. -/
structure GateCall where
  num : BitVec 8
  base : BitVec 32
  sel : BitVec 16
  flags : BitVec 8

/-- The five assignments of `idt_set_gate` to the gate at `a`. -/
def storeGate (a base : BitVec 32) (sel : BitVec 16) (flags : BitVec 8) (m : Memory) : Memory :=
  let m := storeBytes m (offsetBy a 0) (bytes16 ((base &&& 0xFFFF#32).setWidth 16))
  let m := storeBytes m (offsetBy a 6) (bytes16 (((base >>> 16) &&& 0xFFFF#32).setWidth 16))
  let m := storeBytes m (offsetBy a 2) (bytes16 sel)
  let m := storeBytes m (offsetBy a 4) [0#8]
  storeBytes m (offsetBy a 5) [flags]

/-- `idt_set_gate` on the table at `idt`. -/
def gateStore (idt : BitVec 32) (call : GateCall) : Memory → Memory :=
  storeGate (gateAddr idt call.num) call.base call.sel call.flags

/-- `idt_set_gate` on the table of records. -/
def gateStep (call : GateCall) : InterruptState H → InterruptState H :=
  idtSetGate call.num call.base call.sel call.flags

/-- How the processor decodes the eight bytes at `a`. -/
def readGate (m : Memory) (a : BitVec 32) : IdtEntry where
  offsetLow := m (offsetBy a 1) ++ m (offsetBy a 0)
  selector := m (offsetBy a 3) ++ m (offsetBy a 2)
  zero := m (offsetBy a 4)
  typeAttr := m (offsetBy a 5)
  offsetHigh := m (offsetBy a 7) ++ m (offsetBy a 6)

/-- The assignments to the two members of `idt_ptr` at `a`. -/
def storeIdtPtr (a : BitVec 32) (p : IdtPtr) (m : Memory) : Memory :=
  store32 (storeBytes m (offsetBy a 0) (bytes16 p.limit)) (offsetBy a 2) p.base

/-- What `lidt` loads from the six bytes at `a`. -/
def readIdtPtr (m : Memory) (a : BitVec 32) : IdtPtr where
  limit := m (offsetBy a 1) ++ m (offsetBy a 0)
  base := load32 m (offsetBy a 2)

/-- The gate the processor reads for a vector. -/
def fetchDescriptor (m : Memory) (idtr : IdtPtr) (v : BitVec 8) : Option IdtEntry :=
  if 8 * v.toNat + 7 ≤ idtr.limit.toNat then some (readGate m (gateAddr idtr.base v)) else none

/-- The call in the loop that clears the table. -/
def clearGate (i : ℕ) : GateCall := ⟨BitVec.ofNat 8 i, 0, 0, 0⟩

/-- The call for a stub of a family that starts at the vector `base`. -/
def stubGate {k : ℕ} (base : ℕ) (stub : Fin k → BitVec 32) (i : Fin k) : GateCall :=
  ⟨BitVec.ofNat 8 (base + i), stub i, 0x08, 0x8E⟩

/-- One round of the loop of `interrupts_init` that clears both tables. -/
def clearEntryMem (L : InterruptsLink) (m : Memory) (i : ℕ) : Memory :=
  gateStore L.idt (clearGate i) (store32 m (L.handlerAddr i) 0#32)

/-- What `interrupts_init` does to memory between its two messages. -/
def setTablesMem (L : InterruptsLink) (m : Memory) : Memory :=
  let m := (List.range 256).foldl (clearEntryMem L) m
  let m := runActions (gateStore L.idt)
    ((List.finRange 20).map (stubGate 0 fun n => L.entry (.isr n))) m
  -- `pic_remap` writes to ports only
  let m := runActions (gateStore L.idt)
    ((List.finRange 16).map (stubGate 32 fun n => L.entry (.irq n))) m
  storeIdtPtr L.idtPtr ⟨BitVec.ofNat 16 (8 * 256 - 1), L.idt⟩ m

/-- What `interrupts_init` does to memory, and what it loads into the descriptor table register. -/
def interruptsInitMem (L : InterruptsLink) (m : Memory) : Memory × IdtPtr :=
  let m := L.writestring (messageBytes "Initializing interrupts...\n") m
  let m := setTablesMem L m
  (L.writestring (messageBytes "Interrupt system ready\n") m, readIdtPtr m L.idtPtr)

/-! ## One gate -/

section

variable (a base : BitVec 32) (sel : BitVec 16) (flags : BitVec 8) (m : Memory)

/-- What is stored is what the processor decodes. -/
lemma readGate_storeGate : readGate (storeGate a base sel flags m) a = gateFor base sel flags := by
  have hbyte : ∀ (m : Memory) (bytes : List (BitVec 8)) (i j : ℕ), i < 2 ^ 31 → j < 2 ^ 31 →
      bytes.length ≤ 2 ^ 31 → storeBytes m (offsetBy a j) bytes (offsetBy a i) =
        if j ≤ i then bytes.getD (i - j) (m (offsetBy a i)) else m (offsetBy a i) :=
    fun m _ _ _ hi hj hlength => storeBytes_offset m a hi hj hlength
  rw [readGate, storeGate, gateFor]
  simp [hbyte, bytes16, append_bytes16]

/-- Only the eight bytes of the gate change. -/
lemma storeGate_outside {x : BitVec 32} (hx : 8 ≤ (x - a).toNat) :
    storeGate a base sel flags m x = m x := by
  have hout : ∀ (m : Memory) (bytes : List (BitVec 8)) (j : ℕ), j + bytes.length ≤ 8 →
      storeBytes m (offsetBy a j) bytes x = m x := by
    intro m bytes j hj
    refine storeBytes_outside m ?_
    rw [offsetBy]
    bv_omega
  rw [storeGate, hout _ _ 5 (by simp), hout _ _ 4 (by simp), hout _ _ 2 (by simp [bytes16]),
    hout _ _ 6 (by simp [bytes16]), hout _ _ 0 (by simp [bytes16])]

end

/-- A gate is read from its eight bytes. -/
lemma readGate_congr {m m' : Memory} {a : BitVec 32}
    (h : ∀ i < 8, m (offsetBy a i) = m' (offsetBy a i)) : readGate m a = readGate m' a := by
  rw [readGate, readGate, h 0 (by norm_num), h 1 (by norm_num), h 2 (by norm_num),
    h 3 (by norm_num), h 4 (by norm_num), h 5 (by norm_num), h 6 (by norm_num), h 7 (by norm_num)]

/-! ## The table -/

/-- The table of records that the bytes at `idt` represent. -/
def readTable (idt : BitVec 32) (m : Memory) (v : BitVec 8) : IdtEntry :=
  readGate m (gateAddr idt v)

section

variable (idt : BitVec 32)

/-- The bytes of one gate are no other gate's. -/
lemma gate_apart {v w : BitVec 8} (h : v ≠ w) {i : ℕ} (hi : i < 8) :
    8 ≤ (offsetBy (gateAddr idt w) i - gateAddr idt v).toNat := by
  have hne : v.toNat ≠ w.toNat := fun heq => h (BitVec.eq_of_toNat_eq heq)
  have hv := v.isLt
  have hw := w.isLt
  rw [offsetBy, gateAddr, gateAddr, offsetBy, offsetBy]
  bv_omega

/-- A call changes the record of its vector. -/
lemma readTable_gateStore (call : GateCall) (m : Memory) :
    readTable idt (gateStore idt call m) =
      Function.update (readTable idt m) call.num (gateFor call.base call.sel call.flags) := by
  funext v
  by_cases hv : v = call.num
  · subst hv
    rw [Function.update_self]
    exact readGate_storeGate _ _ _ _ _
  · rw [Function.update_of_ne hv]
    exact readGate_congr fun i hi => storeGate_outside _ _ _ _ _ (gate_apart idt (Ne.symm hv) hi)

/-- The bytes represent the records after any calls. -/
lemma readTable_run (calls : List GateCall) {m : Memory} {s : InterruptState H}
    (h : readTable idt m = s.idt) :
    readTable idt (runActions (gateStore idt) calls m) = (runActions gateStep calls s).idt := by
  induction calls generalizing m s with
  | nil => exact h
  | cons call calls ih =>
    refine ih ?_
    rw [readTable_gateStore, h]
    rfl

/-- The bytes of the gates are those of the table. -/
lemma tableBytes_has (v : BitVec 8) {i : ℕ} (hi : i < 8) :
    (tableBytes idt).Has (offsetBy (gateAddr idt v) i) := by
  have hv := v.isLt
  rw [Region.Has, tableBytes, gateAddr, offsetBy, offsetBy]
  bv_omega

/-- The records are read from the bytes of the table. -/
lemma readTable_congr {m m' : Memory} (h : ∀ x, (tableBytes idt).Has x → m' x = m x) :
    readTable idt m' = readTable idt m :=
  funext fun v => readGate_congr fun _ hi => h _ (tableBytes_has idt v hi)

/-- A call writes to the table only. -/
lemma gateStore_differOn (call : GateCall) (m : Memory) :
    DifferOn [tableBytes idt] m (gateStore idt call m) := by
  intro x hx
  refine storeGate_outside _ _ _ _ _ ?_
  have hout := hx _ (List.mem_singleton_self _)
  have hnum := call.num.isLt
  rw [Region.Has, tableBytes] at hout
  rw [gateAddr, offsetBy]
  bv_omega

lemma gateStore_run_differOn (calls : List GateCall) (m : Memory) :
    DifferOn [tableBytes idt] m (runActions (gateStore idt) calls m) := by
  induction calls generalizing m with
  | nil => exact fun _ _ => rfl
  | cons call calls ih => exact ((gateStore_differOn idt call m).trans (ih _)).mono (by simp)

end

/-! ## Initialisation -/

/-- The calls for a family of stubs. -/
lemma setStubGates_eq_run {k : ℕ} (base : ℕ) (stub : Fin k → BitVec 32) (s : InterruptState H) :
    setStubGates base stub s =
      runActions gateStep ((List.finRange k).map (stubGate base stub)) s := by
  rw [setStubGates]
  induction List.finRange k generalizing s with
  | nil => rfl
  | cons i l ih =>
    rw [List.foldl_cons, ih]
    rfl

/-- `idt_set_gate` does not change the descriptor table register. -/
lemma idtr_run (calls : List GateCall) (s : InterruptState H) :
    (runActions gateStep calls s).idtr = s.idtr := by
  induction calls generalizing s with
  | nil => rfl
  | cons call calls ih => exact ih _

/-- `lidt` reads what was stored. -/
lemma readIdtPtr_storeIdtPtr (a : BitVec 32) (p : IdtPtr) (m : Memory) :
    readIdtPtr (storeIdtPtr a p m) a = p := by
  have hout : ∀ i < 2, ∀ m : Memory, store32 m (offsetBy a 2) p.base (offsetBy a i) =
      m (offsetBy a i) := by
    intro i hi m
    refine store32_outside m _ ?_
    rw [offsetBy, offsetBy]
    bv_omega
  have hbyte : ∀ i < 2, storeBytes m (offsetBy a 0) (bytes16 p.limit) (offsetBy a i) =
      (bytes16 p.limit).getD i (m (offsetBy a i)) := by
    intro i hi
    exact storeBytes_offset m a (by omega) (by norm_num) (by simp [bytes16])
  rw [readIdtPtr, storeIdtPtr, hout 0 (by norm_num), hout 1 (by norm_num), hbyte 0 (by norm_num),
    hbyte 1 (by norm_num), load32_store32_same]
  simp [bytes16, append_bytes16]

/-- Only the six bytes of `idt_ptr` change. -/
lemma storeIdtPtr_differOn (a : BitVec 32) (p : IdtPtr) (m : Memory) :
    DifferOn [⟨a, 6⟩] m (storeIdtPtr a p m) := by
  intro x hx
  have hout := hx _ (List.mem_singleton_self _)
  rw [Region.Has] at hout
  rw [storeIdtPtr, store32_outside, storeBytes_outside]
  · rw [offsetBy]
    simp only [bytes16, List.length_cons, List.length_nil]
    bv_omega
  · rw [offsetBy]
    bv_omega

section

variable (L : InterruptsLink)

/-- The pointers lie in `interrupt_handlers`. -/
lemma handlers_has {i : ℕ} (hi : i < 256) {x : BitVec 32}
    (hx : (Region.word (L.handlerAddr i)).Has x) : L.handlers.Has x := by
  rw [Region.Has, Region.word, InterruptsLink.handlerAddr, offsetBy] at hx
  rw [Region.Has, InterruptsLink.handlers]
  bv_omega

lemma clearEntryMem_differOn {i : ℕ} (hi : i < 256) (m : Memory) :
    DifferOn [L.handlers, L.table] m (clearEntryMem L m i) := by
  have hstore : DifferOn [L.handlers] m (store32 m (L.handlerAddr i) 0#32) := fun x hx =>
    store32_of_not_has m _ fun hword => hx _ (List.mem_singleton_self _) (handlers_has L hi hword)
  exact hstore.trans (gateStore_differOn L.idt (clearGate i) _)

/-- The loop writes to the two tables. -/
lemma clear_differOn (l : List ℕ) (hl : ∀ i ∈ l, i < 256) (m : Memory) :
    DifferOn [L.handlers, L.table] m (l.foldl (clearEntryMem L) m) := by
  induction l generalizing m with
  | nil => exact fun _ _ => rfl
  | cons i l ih =>
    rw [List.forall_mem_cons] at hl
    exact ((clearEntryMem_differOn L hl.1 m).trans (ih hl.2 _)).mono (by simp)

/-- The loop clears the gates that it clears in the table of records. -/
lemma readTable_clear (l : List ℕ) (hl : ∀ i ∈ l, i < 256) {m : Memory} {s : InterruptState H}
    (h : readTable L.idt m = s.idt) :
    readTable L.idt (l.foldl (clearEntryMem L) m) = (l.foldl clearEntry s).idt := by
  induction l generalizing m s with
  | nil => exact h
  | cons i l ih =>
    rw [List.forall_mem_cons] at hl
    refine ih hl.2 ?_
    have hstore : readTable L.idt (store32 m (L.handlerAddr i) 0#32) = readTable L.idt m :=
      readTable_congr L.idt fun x hx => store32_of_not_has m _ fun hword =>
        (L.idt_apart L.handlers (by simp [InterruptsLink.handlers])).not_has
          (handlers_has L hl.1 hword) hx
    rw [clearEntryMem, readTable_gateStore, hstore, h]
    rfl

/-- The loop makes every pointer `NULL`. -/
lemma load32_clear (l : List ℕ) (hl : ∀ i ∈ l, i < 256) {m : Memory} {i : ℕ} (hi : i < 256)
    (h : load32 m (L.handlerAddr i) = 0#32 ∨ i ∈ l) :
    load32 (l.foldl (clearEntryMem L) m) (L.handlerAddr i) = 0#32 := by
  induction l generalizing m with
  | nil => exact h.resolve_right List.not_mem_nil
  | cons j l ih =>
    rw [List.forall_mem_cons] at hl
    refine ih hl.2 ?_
    have hgate : load32 (clearEntryMem L m j) (L.handlerAddr i) =
        load32 (store32 m (L.handlerAddr j) 0#32) (L.handlerAddr i) := by
      refine load32_congr fun x hx => (gateStore_differOn L.idt _ _).eq_of_apart (q := L.handlers)
        ?_ (handlers_has L hi hx)
      rw [List.forall_mem_singleton]
      exact L.idt_apart _ (by simp [InterruptsLink.handlers])
    rw [hgate]
    by_cases hij : i = j
    · rw [hij, load32_store32_same]
      exact Or.inl rfl
    · rw [load32_store32_of_apart]
      · exact h.imp_right fun hmem => (List.mem_cons.mp hmem).resolve_left hij
      · exact wordsApart_of_ne (by omega) (by omega) (Ne.symm hij)

/-- Between the messages only the tables and `idt_ptr` change. -/
lemma setTablesMem_differOn (m : Memory) :
    DifferOn [L.handlers, L.table, L.pointer] m (setTablesMem L m) := by
  have hclear := clear_differOn L (List.range 256) (fun _ => List.mem_range.mp) m
  rw [setTablesMem]
  refine (hclear.trans ((gateStore_run_differOn L.idt _ _).trans
    ((gateStore_run_differOn L.idt _ _).trans (storeIdtPtr_differOn L.idtPtr _ _)))).mono ?_
  simp [InterruptsLink.table, InterruptsLink.pointer]

/-- The bytes of the table represent the records that `interrupts_init` sets. -/
lemma readTable_setTablesMem (m : Memory) (s : InterruptState H) :
    readTable L.idt (setTablesMem L m) = (interruptsInit L.toKernelLink s).idt := by
  have hclear := readTable_clear L (List.range 256) (fun _ => List.mem_range.mp) (m := m)
    (s := { s with idt := readTable L.idt m }) rfl
  have hgates := readTable_run L.idt
    ((List.finRange 16).map (stubGate 32 fun n => L.entry (.irq n))) (readTable_run L.idt
      ((List.finRange 20).map (stubGate 0 fun n => L.entry (.isr n))) hclear)
  rw [← setStubGates_eq_run, ← setStubGates_eq_run] at hgates
  have hrecords : (interruptsInit L.toKernelLink { s with idt := readTable L.idt m }).idt =
      (setStubGates 32 (fun n => L.entry (.irq n)) (setStubGates 0 (fun n => L.entry (.isr n))
        ((List.range 256).foldl clearEntry { s with idt := readTable L.idt m }))).idt := by
    rw [interruptsInit]
  have hpointer : ∀ m p, readTable L.idt (storeIdtPtr L.idtPtr p m) = readTable L.idt m := by
    intro m p
    refine readTable_congr L.idt fun x hx => (storeIdtPtr_differOn _ _ _).eq_of_apart ?_ hx
    rw [List.forall_mem_singleton]
    exact (L.idt_apart _ (List.mem_cons_self)).symm
  rw [setTablesMem, hpointer, hgates, ← hrecords]
  -- every entry is set, so what was there before does not matter
  funext v
  rw [idt_interruptsInit_eq, idt_interruptsInit_eq]

/-- A pointer is the same if only the descriptor table and `idt_ptr` differ. -/
lemma load32_handlerAddr_of_differOn {rs : List Region} {m m' : Memory} (h : DifferOn rs m m')
    (hrs : ∀ r ∈ rs, r.Apart L.handlers) {i : ℕ} (hi : i < 256) :
    load32 m' (L.handlerAddr i) = load32 m (L.handlerAddr i) :=
  load32_congr fun _ hx => h.eq_of_apart hrs (handlers_has L hi hx)

lemma table_apart_handlers : L.table.Apart L.handlers :=
  L.idt_apart _ (List.mem_cons_of_mem _ List.mem_cons_self)

lemma pointer_apart_handlers : L.pointer.Apart L.handlers :=
  L.idtPtr_apart _ List.mem_cons_self

/-- No handler is installed between the messages. -/
lemma load32_setTablesMem (m : Memory) {i : ℕ} (hi : i < 256) :
    load32 (setTablesMem L m) (L.handlerAddr i) = 0#32 := by
  have hgates := fun calls m => load32_handlerAddr_of_differOn L
    (gateStore_run_differOn L.idt calls m)
    (List.forall_mem_singleton.mpr (table_apart_handlers L)) hi
  have hpointer := fun p m => load32_handlerAddr_of_differOn L (storeIdtPtr_differOn L.idtPtr p m)
    (List.forall_mem_singleton.mpr (pointer_apart_handlers L)) hi
  rw [setTablesMem, hpointer, hgates, hgates]
  exact load32_clear L _ (fun _ => List.mem_range.mp) hi (Or.inr (List.mem_range.mpr hi))

/-- A message changes the cursor and the screen. -/
lemma writestring_differOn (data : List (BitVec 8)) {m : Memory}
    (hcol : ColumnOnScreen (L.terminal m)) :
    DifferOn [.word L.terminalRow, .word L.terminalColumn, textMemory] m
      (L.writestring data m) := by
  intro x hx
  simp only [List.forall_mem_cons] at hx
  exact TerminalLink.writestring_outside data hcol hx.1 hx.2.1 hx.2.2.1

/-- The tables are apart from what a message changes. -/
lemma message_apart {q : Region} (hq : q = L.table ∨ q = L.handlers) :
    ∀ r ∈ [.word L.terminalRow, .word L.terminalColumn, textMemory], r.Apart q := by
  intro r hr
  have hregion : r ∈ L.regions := by
    simp only [List.mem_cons, List.not_mem_nil, or_false] at hr
    rcases hr with rfl | rfl | rfl <;> simp [TerminalLink.regions]
  rcases hq with rfl | rfl
  · exact (L.idt_apart r (by simp [hregion])).symm
  · exact (L.handlers_apart r hregion).symm

/-- Setting gates changes nothing of the terminal. -/
lemma terminal_of_differOn {m m' : Memory}
    (h : DifferOn [L.handlers, L.table, L.pointer] m m') :
    SameScreen (L.terminal m') (L.terminal m) := by
  refine TerminalLink.terminal_congr fun q hq x hx => h.eq_of_apart ?_ hx
  simp only [List.forall_mem_cons]
  exact ⟨L.handlers_apart q hq, L.idt_apart q (by simp [hq]), L.idtPtr_apart q (by simp [hq]),
    List.forall_mem_nil _⟩

section

variable (data data' : List (BitVec 8)) {m : Memory} (hcol : ColumnOnScreen (L.terminal m))

include hcol

/-- The screen after the first message and the tables. -/
lemma terminal_setTablesMem :
    SameScreen (L.terminal (setTablesMem L (L.writestring data m)))
      (terminalStep (.writestring data) (L.terminal m)) :=
  (terminal_of_differOn L (setTablesMem_differOn L _)).trans (L.terminal_writestring data hcol)

/-- The second message, too, finds the cursor in a column of the screen. -/
lemma columnOnScreen_setTablesMem :
    ColumnOnScreen (L.terminal (setTablesMem L (L.writestring data m))) := by
  rw [ColumnOnScreen, (terminal_setTablesMem L data hcol).column]
  exact hcol.call (.writestring data)

/-- The screen after both messages. -/
lemma terminal_messages :
    SameScreen (L.terminal (L.writestring data' (setTablesMem L (L.writestring data m))))
      (runActions terminalStep [.writestring data, .writestring data'] (L.terminal m)) :=
  (L.terminal_writestring data' (columnOnScreen_setTablesMem L data hcol)).trans
    ((terminal_setTablesMem L data hcol).call (.writestring data'))

/-- The second message writes to the terminal only. -/
lemma message_differOn :
    DifferOn [.word L.terminalRow, .word L.terminalColumn, textMemory]
      (setTablesMem L (L.writestring data m))
      (L.writestring data' (setTablesMem L (L.writestring data m))) :=
  writestring_differOn L data' (columnOnScreen_setTablesMem L data hcol)

/-- Nothing but the variables and the screen changes. -/
lemma written_differOn :
    DifferOn L.written m (L.writestring data' (setTablesMem L (L.writestring data m))) := by
  have hfirst := writestring_differOn L data hcol
  refine (hfirst.trans ((setTablesMem_differOn L _).trans
    (message_differOn L data data' hcol))).mono ?_
  simp [InterruptsLink.written]

/-- The messages do not change the gates. -/
lemma readTable_messages (s : InterruptState H) :
    readTable L.idt (L.writestring data' (setTablesMem L (L.writestring data m))) =
      (interruptsInit L.toKernelLink s).idt := by
  rw [← readTable_setTablesMem L (L.writestring data m) s]
  exact readTable_congr L.idt fun x hx =>
    (message_differOn L data data' hcol).eq_of_apart (message_apart L (Or.inl rfl)) hx

/-- The messages do not change the handlers. -/
lemma load32_messages {i : ℕ} (hi : i < 256) :
    load32 (L.writestring data' (setTablesMem L (L.writestring data m))) (L.handlerAddr i) =
      0#32 := by
  rw [load32_handlerAddr_of_differOn L (message_differOn L data data' hcol)
    (message_apart L (Or.inr rfl)) hi]
  exact load32_setTablesMem L _ hi

end

end

/-- The interrupt code of `blockLink` with the variables after the descriptor table. -/
def sampleLink : InterruptsLink where
  toKernelLink := blockLink
  terminalRow := 0x110800#32
  terminalColumn := 0x110804#32
  terminalColor := 0x110808#32
  variables_apart := by decide
  idtPtr := 0x11080C#32
  interruptHandlers := 0x110814#32
  idt_apart := by decide
  idtPtr_apart := by decide
  handlers_apart := by decide

end VVBright
