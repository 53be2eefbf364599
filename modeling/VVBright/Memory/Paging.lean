import VVBright.Memory.Frames

/-!
# Page tables

`map_page`, `switch_directory` and `get_current_directory` of `memory.c`, and the two-level walk
the processor performs.

A `page_entry_t` is a 32-bit word whose members are bit fields (`PageField`); an assignment to a
member reads the word, overwrites the field and writes the word back.  `map_page` is summarised by
two lemmas: when the table exists it overwrites one entry (`exec_mapPage_of_table`), and when it
does not, it takes a frame, records it in the directory, makes every entry of it `clearedEntry` and
then overwrites one entry (`exec_mapPage_of_null`).
-/

namespace VVBright

open Traced

/-! ## Page entries -/

/-- The members of `page_entry_t`. -/
inductive PageField where
  | present | rw | user | pwt | pcd | accessed | dirty | pat | global | avail | frame
  deriving DecidableEq, Repr

/-- The position of the lowest bit of a member. -/
def PageField.lo : PageField → ℕ
  | present => 0
  | rw => 1
  | user => 2
  | pwt => 3
  | pcd => 4
  | accessed => 5
  | dirty => 6
  | pat => 7
  | global => 8
  | avail => 9
  | frame => 12

/-- The width of a member in bits. -/
def PageField.width : PageField → ℕ
  | avail => 3
  | frame => 20
  | _ => 1

/-- The entry with one member overwritten. -/
def PageField.set (f : PageField) (v entry : BitVec 32) : BitVec 32 :=
  setField f.lo f.width v entry

/-- `entry->f = v`, for the entry at the address `a`. -/
def setEntryField (a : BitVec 32) (f : PageField) (v : BitVec 32) : MemM Unit := do
  let entry ← loadWord a
  storeWord a (f.set v entry)

/-- A sequence of assignments to members of the entry at the address `a`. -/
def assignFields (a : BitVec 32) : List (PageField × BitVec 32) → MemM Unit
  | [] => pure ()
  | (f, v) :: fs => do
    setEntryField a f v
    assignFields a fs

/-- The assignments that clear an entry of a new page table. -/
def clearAssignments : List (PageField × BitVec 32) :=
  [(.frame, 0), (.present, 0), (.rw, 1), (.user, 0), (.pwt, 0), (.pcd, 0), (.accessed, 0),
    (.dirty, 0), (.pat, 0), (.global, 0), (.avail, 0)]

/-- The value `(flags & bit) ? 1 : 0`. -/
def flagBit (flags bit : BitVec 32) : BitVec 32 := if flags &&& bit ≠ 0#32 then 1#32 else 0#32

/-- The assignments that map an entry to the page of `phys`. -/
def fillAssignments (phys flags : BitVec 32) : List (PageField × BitVec 32) :=
  [(.frame, BitVec.ofNat 32 (phys.toNat / pageSize)), (.present, 1),
    (.rw, flagBit flags 0x02#32), (.user, flagBit flags 0x04#32),
    (.pwt, flagBit flags 0x08#32), (.pcd, flagBit flags 0x10#32)]

/-! ## The functions of `memory.c` -/

lemma directorySlot_lt (virt : BitVec 32) : virt.toNat / pageSize / 1024 < 1024 := by
  have := virt.isLt
  rw [pageSize]
  omega

/-- The slot of the page directory a virtual address belongs to. -/
def tableIndex (virt : BitVec 32) : Fin 1024 :=
  ⟨virt.toNat / pageSize / 1024, directorySlot_lt virt⟩

/-- The entry of its page table a virtual address belongs to. -/
def entryIndex (virt : BitVec 32) : ℕ := virt.toNat / pageSize % 1024

/-- The first slot of a directory covers the first 4 MB. -/
lemma tableIndex_eq_zero_iff {virt : BitVec 32} : tableIndex virt = 0 ↔ virt.toNat < 0x400000 := by
  rw [Fin.ext_iff]
  simp only [tableIndex, pageSize, Fin.val_zero]
  omega

lemma entryIndex_of_lt {virt : BitVec 32} (hvirt : virt.toNat < 0x400000) :
    entryIndex virt = virt.toNat / 4096 := by
  rw [entryIndex, pageSize, Nat.mod_eq_of_lt (by omega)]

/-- The state with the slot `i` of the directory `d` referring to the table `table`. -/
def setTable (d : DirPtr) (i : Fin 1024) (table physical : BitVec 32) (s : MemoryState) :
    MemoryState :=
  { s with
    dirs := Function.update s.dirs d
      { s.dirs d with
        tables := Function.update (s.dirs d).tables i table
        tablesPhysical := Function.update (s.dirs d).tablesPhysical i physical } }

/-- The part of `map_page` that creates a page table in the slot `i`. -/
def newTable (d : DirPtr) (i : Fin 1024) (flags : BitVec 32) : MemM Unit := do
  let table ← allocFrame
  modify (setTable d i table (table ||| flags ||| 0x01#32))
  forLoop 1024 fun j => assignFields (wordAddr table j) clearAssignments

/-- The part of `map_page` before the mapping itself: create the page table if there is none. -/
def ensureTable (d : DirPtr) (i : Fin 1024) (flags : BitVec 32) : MemM Unit := do
  let slot ← gets fun s => (s.dirs d).tables i
  if slot = NULL then
    newTable d i flags
  else
    pure ()

/-- `map_page`. -/
def mapPage (d : DirPtr) (virt phys flags : BitVec 32) : MemM Unit := do
  ensureTable d (tableIndex virt) flags
  let table ← gets fun s => (s.dirs d).tables (tableIndex virt)
  assignFields (wordAddr table (entryIndex virt)) (fillAssignments phys flags)

/-- `switch_directory`. -/
def switchDirectory (d : DirPtr) : MemM Unit := do
  modify fun s => { s with currentDirectory := some d }
  modify fun s => { s with cr3 := some ⟨s.tablesPhysicalAddr d, d⟩ }

lemma exec_switchDirectory (d : DirPtr) (s : MemoryState) :
    (switchDirectory d).exec s =
      { s with currentDirectory := some d, cr3 := some ⟨s.tablesPhysicalAddr d, d⟩ } := rfl

/-- `get_current_directory`. -/
def getCurrentDirectory : MemM (Option DirPtr) := gets MemoryState.currentDirectory

/-- The words of a directory from its first byte on: `tables`, then `tables_physical`. -/
def PageDirectory.word (dir : PageDirectory) (j : ℕ) : BitVec 32 :=
  if h : j < 1024 then dir.tables ⟨j, h⟩
  else dir.tablesPhysical ⟨(j - 1024) % 1024, Nat.mod_lt _ (by decide)⟩

/-- The directory as the processor sees it when it takes the 1024 words from the byte `offset` on
for the directory words. -/
def PageDirectory.seenFrom (dir : PageDirectory) (offset : ℕ) : PageDirectory :=
  { dir with tablesPhysical := fun i => dir.word (offset / 4 + i) }

/-- The directory the processor walks.  It ignores the low twelve bits of CR3, so unless
`tables_physical` is page-aligned it starts in the middle of `tables`. -/
def MemoryState.loadedDirectory (s : MemoryState) : Option PageDirectory :=
  s.cr3.map fun r => (s.dirs r.directory).seenFrom
    ((r.address &&& 0xFFFFF000#32) - (s.dirAddr r.directory).val).toNat

/-- What a page entry makes of an address of its page: bit 0 is the present bit, the upper 20 bits
are the frame number. -/
def entryTarget (pte virt : BitVec 32) : Option (BitVec 32) :=
  if pte.getLsbD 0 then
    some (BitVec.ofNat 32 (pte.toNat / 4096 * 4096 + virt.toNat % 4096))
  else
    none

/-- The two-level walk of the processor: the directory word of `virt >> 22`, then the entry
`(virt >> 12) mod 1024` of the table it names. -/
def pageWalk (mem : Memory) (dir : PageDirectory) (virt : BitVec 32) : Option (BitVec 32) :=
  let pde := dir.tablesPhysical (tableIndex virt)
  if pde.getLsbD 0 then
    let table := BitVec.ofNat 32 (pde.toNat / 4096 * 4096)
    entryTarget (load32 mem (wordAddr table (entryIndex virt))) virt
  else
    none

/-! ## Entries as words -/

/-- The entry after a sequence of assignments to its members. -/
def applyAssignments (fs : List (PageField × BitVec 32)) (entry : BitVec 32) : BitVec 32 :=
  fs.foldl (fun e p => p.1.set p.2 e) entry

/-- The value of every entry of a new page table: not present, writable, frame 0. -/
def clearedEntry : BitVec 32 := 0x2#32

/-- The entry `entry` after it has been mapped to the page of `phys`. -/
def filledEntry (phys flags entry : BitVec 32) : BitVec 32 :=
  applyAssignments (fillAssignments phys flags) entry

@[simp] lemma exec_setEntryField (a v : BitVec 32) (f : PageField) (s : MemoryState) :
    (setEntryField a f v).exec s =
      { s with mem := store32 s.mem a (f.set v (load32 s.mem a)) } := rfl

/-- A sequence of assignments to one entry amounts to one store. -/
theorem exec_assignFields (a : BitVec 32) (fs : List (PageField × BitVec 32)) (s : MemoryState) :
    (assignFields a fs).exec s =
      { s with mem := store32 s.mem a (applyAssignments fs (load32 s.mem a)) } := by
  induction fs generalizing s with
  | nil => rw [assignFields, exec_pure, applyAssignments, List.foldl_nil, store32_load32_same]
  | cons p fs ih =>
    obtain ⟨f, v⟩ := p
    rw [assignFields, exec_bind, exec_setEntryField, ih]
    simp only [load32_store32_same, store32_store32_same, applyAssignments, List.foldl_cons]

/-- The accesses of a sequence of assignments all go to the entry; the states in between differ
in the entry only. -/
theorem assignFields_accessesIn {P : MemoryState → BitVec 32 → Prop} (a : BitVec 32)
    (fs : List (PageField × BitVec 32)) {s : MemoryState}
    (h : ∀ v, P { s with mem := store32 s.mem a v } a) : AccessesIn P (assignFields a fs) s := by
  induction fs generalizing s with
  | nil => exact accessesIn_pure _ _ _
  | cons p fs ih =>
    obtain ⟨f, v⟩ := p
    have hs : P s a := by simpa using h (load32 s.mem a)
    rw [assignFields, accessesIn_bind, exec_setEntryField]
    constructor
    · rw [setEntryField, accessesIn_bind, accessesIn_loadWord, accessesIn_storeWord]
      exact ⟨hs, hs⟩
    · exact ih fun v' => by simpa using h v'

/-- The bits of an entry after an assignment to a member. -/
lemma getLsbD_set (f : PageField) (v entry : BitVec 32) {i : ℕ} (hi : i < 32) :
    (f.set v entry).getLsbD i =
      if f.lo ≤ i ∧ i < f.lo + f.width then v.getLsbD (i - f.lo) else entry.getLsbD i :=
  getLsbD_setField f.lo f.width v entry hi

/-- The assignments of the clearing loop determine the entry, whatever the word held before. -/
theorem applyAssignments_clearAssignments (entry : BitVec 32) :
    applyAssignments clearAssignments entry = clearedEntry := by
  apply BitVec.eq_of_getLsbD_eq
  intro i hi
  simp only [applyAssignments, clearAssignments, List.foldl_cons, List.foldl_nil,
    getLsbD_set _ _ _ hi, PageField.lo, PageField.width]
  interval_cases i <;> simp [clearedEntry]

/-- The bits of a filled entry. -/
lemma getLsbD_filledEntry (phys flags entry : BitVec 32) {i : ℕ} (hi : i < 32) :
    (filledEntry phys flags entry).getLsbD i =
      if i = 0 then true
      else if i = 1 then (flagBit flags 0x02#32).getLsbD 0
      else if i = 2 then (flagBit flags 0x04#32).getLsbD 0
      else if i = 3 then (flagBit flags 0x08#32).getLsbD 0
      else if i = 4 then (flagBit flags 0x10#32).getLsbD 0
      else if i < 12 then entry.getLsbD i
      else (BitVec.ofNat 32 (phys.toNat / pageSize)).getLsbD (i - 12) := by
  simp only [filledEntry, applyAssignments, fillAssignments, List.foldl_cons, List.foldl_nil,
    getLsbD_set _ _ _ hi, PageField.lo, PageField.width]
  interval_cases i <;> simp

/-- A filled entry is present. -/
lemma filledEntry_present (phys flags entry : BitVec 32) :
    (filledEntry phys flags entry).getLsbD 0 = true := by
  rw [getLsbD_filledEntry phys flags entry (by norm_num), if_pos rfl]

/-- A filled entry names the frame of `phys`. -/
theorem filledEntry_frame (phys flags entry : BitVec 32) :
    (filledEntry phys flags entry).toNat / 4096 = phys.toNat / 4096 := by
  have hphys := phys.isLt
  have hshift : filledEntry phys flags entry >>> 12 = BitVec.ofNat 32 (phys.toNat / 4096) := by
    apply BitVec.eq_of_getLsbD_eq
    intro i hi
    rw [BitVec.getLsbD_ushiftRight]
    by_cases h : 12 + i < 32
    · rw [getLsbD_filledEntry phys flags entry h]
      simp [pageSize, show ¬ (12 + i = 1) by omega, show ¬ (12 + i = 2) by omega,
        show ¬ (12 + i = 3) by omega, show ¬ (12 + i = 4) by omega]
    · have hlt : phys.toNat / 4096 < 2 ^ i :=
        calc phys.toNat / 4096 < 2 ^ 20 := by omega
          _ ≤ 2 ^ i := Nat.pow_le_pow_right (by norm_num) (by omega)
      rw [BitVec.getLsbD_of_ge _ _ (by omega), BitVec.getLsbD_ofNat, Nat.testBit_lt_two_pow hlt,
        Bool.and_false]
  have h := congrArg BitVec.toNat hshift
  rw [BitVec.toNat_ushiftRight, Nat.shiftRight_eq_div_pow, BitVec.toNat_ofNat] at h
  omega

/-! ## `map_page` as a change of state -/

/-- The word at `a` shares no byte with the page table at `table`. -/
def OffTable (table a : BitVec 32) : Prop := ∀ j < 1024, WordsApart (wordAddr table j) a

/-- Memory after the first `n` rounds of the loop that clears the page table at `table`. -/
def clearTableMem (table : BitVec 32) (m : Memory) : ℕ → Memory
  | 0 => m
  | n + 1 => store32 (clearTableMem table m n) (wordAddr table n) clearedEntry

/-- The state with the entry at the address `a` mapped to the page of `phys`. -/
def fillState (a phys flags : BitVec 32) (s : MemoryState) : MemoryState :=
  { s with mem := store32 s.mem a (filledEntry phys flags (load32 s.mem a)) }

/-- The state with a new, cleared page table `table` in the slot `i` of the directory `d`. -/
def newTableState (d : DirPtr) (i : Fin 1024) (table flags : BitVec 32) (s : MemoryState) :
    MemoryState :=
  { setTable d i table (table ||| flags ||| 0x01#32) s with
    mem := clearTableMem table s.mem 1024 }

lemma mem_newTableState (d : DirPtr) (i : Fin 1024) (table flags : BitVec 32) (s : MemoryState) :
    (newTableState d i table flags s).mem = clearTableMem table s.mem 1024 := rfl

lemma mem_fillState (a phys flags : BitVec 32) (s : MemoryState) :
    (fillState a phys flags s).mem =
      store32 s.mem a (filledEntry phys flags (load32 s.mem a)) := rfl

lemma dirs_fillState (a phys flags : BitVec 32) (s : MemoryState) :
    (fillState a phys flags s).dirs = s.dirs := rfl

/-- The pointers after a table has been added. -/
lemma tables_newTableState (d : DirPtr) (i : Fin 1024) (table flags : BitVec 32) (s : MemoryState)
    (d' : DirPtr) (i' : Fin 1024) :
    ((newTableState d i table flags s).dirs d').tables i' =
      if d' = d ∧ i' = i then table else (s.dirs d').tables i' := by
  by_cases hd : d' = d
  · subst hd
    by_cases hi : i' = i <;> simp [newTableState, setTable, hi]
  · simp [newTableState, setTable, hd]

/-- The directory words after a table has been added. -/
lemma tablesPhysical_newTableState (d : DirPtr) (i : Fin 1024) (table flags : BitVec 32)
    (s : MemoryState) (d' : DirPtr) (i' : Fin 1024) :
    ((newTableState d i table flags s).dirs d').tablesPhysical i' =
      if d' = d ∧ i' = i then table ||| flags ||| 0x01#32 else (s.dirs d').tablesPhysical i' := by
  by_cases hd : d' = d
  · subst hd
    by_cases hi : i' = i <;> simp [newTableState, setTable, hi]
  · simp [newTableState, setTable, hd]

/-- The clearing loop changes memory only, one entry a round. -/
lemma exec_clearTable (table : BitVec 32) (n : ℕ) (s : MemoryState) :
    (forLoop n fun j => assignFields (wordAddr table j) clearAssignments).exec s =
      { s with mem := clearTableMem table s.mem n } := by
  induction n with
  | zero => rfl
  | succ n ih =>
    rw [exec_forLoop_succ, ih, exec_assignFields, applyAssignments_clearAssignments]
    rfl

/-- The entries the clearing loop has passed are clear. -/
lemma load32_clearTableMem (table : BitVec 32) (m : Memory) {n j : ℕ} (hn : n ≤ 1024)
    (hj : j < n) : load32 (clearTableMem table m n) (wordAddr table j) = clearedEntry := by
  induction n with
  | zero => omega
  | succ n ih =>
    rw [clearTableMem]
    rcases Nat.lt_succ_iff_lt_or_eq.mp hj with hlt | rfl
    · rw [load32_store32_of_apart _ _ (wordAddr_apart (by omega) (by omega) (by omega))]
      exact ih (by omega) hlt
    · exact load32_store32_same _ _ _

/-- The clearing loop leaves the words off its table alone. -/
lemma load32_clearTableMem_of_off {table a : BitVec 32} (m : Memory) (ha : OffTable table a)
    {n : ℕ} (hn : n ≤ 1024) : load32 (clearTableMem table m n) a = load32 m a := by
  induction n with
  | zero => rfl
  | succ n ih =>
    rw [clearTableMem, load32_store32_of_apart _ _ (ha n (by omega))]
    exact ih (by omega)

lemma exec_newTable (d : DirPtr) (i : Fin 1024) (flags : BitVec 32) (s : MemoryState) :
    (newTable d i flags).exec s =
      newTableState d i (allocFrame.eval s) flags (allocFrame.exec s) := by
  rw [newTable, exec_bind, exec_bind, exec_modify, exec_clearTable]
  rfl

section

variable {d : DirPtr} {virt : BitVec 32} (phys flags : BitVec 32) {s : MemoryState}

/-- `map_page` with an existing page table overwrites one entry of it. -/
theorem exec_mapPage_of_table {table : BitVec 32}
    (htable : (s.dirs d).tables (tableIndex virt) = table) (hne : table ≠ NULL) :
    (mapPage d virt phys flags).exec s =
      fillState (wordAddr table (entryIndex virt)) phys flags s := by
  have hensure : (ensureTable d (tableIndex virt) flags).exec s = s := by
    rw [ensureTable, exec_bind, eval_gets, exec_gets, if_neg (by rwa [htable]), exec_pure]
  rw [mapPage, exec_bind, hensure, exec_bind, exec_gets, eval_gets, htable, exec_assignFields]
  rfl

/-- `map_page` without a page table takes a frame for one, clears it and overwrites one entry. -/
theorem exec_mapPage_of_null (hnull : (s.dirs d).tables (tableIndex virt) = NULL) :
    (mapPage d virt phys flags).exec s =
      fillState (wordAddr (allocFrame.eval s) (entryIndex virt)) phys flags
        (newTableState d (tableIndex virt) (allocFrame.eval s) flags (allocFrame.exec s)) := by
  have hensure : (ensureTable d (tableIndex virt) flags).exec s =
      newTableState d (tableIndex virt) (allocFrame.eval s) flags (allocFrame.exec s) := by
    rw [ensureTable, exec_bind, eval_gets, exec_gets, if_pos hnull, exec_newTable]
  have htable : ((newTableState d (tableIndex virt) (allocFrame.eval s) flags
      (allocFrame.exec s)).dirs d).tables (tableIndex virt) = allocFrame.eval s := by
    rw [tables_newTableState, if_pos ⟨rfl, rfl⟩]
  rw [mapPage, exec_bind, hensure, exec_bind, exec_gets, eval_gets, htable, exec_assignFields]
  rfl

/-- A call changes its own directory only. -/
lemma dirs_mapPage_of_ne {d' : DirPtr} (hd : d' ≠ d) :
    ((mapPage d virt phys flags).exec s).dirs d' = s.dirs d' := by
  by_cases hnull : (s.dirs d).tables (tableIndex virt) = NULL
  · rw [exec_mapPage_of_null _ _ hnull, dirs_fillState]
    refine (Function.update_of_ne hd _ _).trans ?_
    rw [dirs_allocFrame]
  · rw [exec_mapPage_of_table _ _ rfl hnull, dirs_fillState]

/-- The pointers after a call: that of a new table is its address, the others stay. -/
lemma tables_mapPage (d' : DirPtr) (i : Fin 1024) :
    (((mapPage d virt phys flags).exec s).dirs d').tables i =
      if (s.dirs d).tables (tableIndex virt) = NULL ∧ d' = d ∧ i = tableIndex virt then
        allocFrame.eval s
      else (s.dirs d').tables i := by
  by_cases hnull : (s.dirs d).tables (tableIndex virt) = NULL
  · rw [exec_mapPage_of_null _ _ hnull, dirs_fillState, tables_newTableState, dirs_allocFrame]
    simp only [hnull, true_and]
  · rw [exec_mapPage_of_table _ _ rfl hnull, dirs_fillState, if_neg fun h => hnull h.1]

/-- The directory words after a call: that of a new table is built from its address and the flags,
the others stay. -/
lemma tablesPhysical_mapPage (d' : DirPtr) (i : Fin 1024) :
    (((mapPage d virt phys flags).exec s).dirs d').tablesPhysical i =
      if (s.dirs d).tables (tableIndex virt) = NULL ∧ d' = d ∧ i = tableIndex virt then
        allocFrame.eval s ||| flags ||| 0x01#32
      else (s.dirs d').tablesPhysical i := by
  by_cases hnull : (s.dirs d).tables (tableIndex virt) = NULL
  · rw [exec_mapPage_of_null _ _ hnull, dirs_fillState, tablesPhysical_newTableState,
      dirs_allocFrame]
    simp only [hnull, true_and]
  · rw [exec_mapPage_of_table _ _ rfl hnull, dirs_fillState, if_neg fun h => hnull h.1]

end

/-! ## The directory in CR3 -/

/-- The directory is page-aligned, and with it `tables_physical`. -/
def DirAligned (s : MemoryState) (d : DirPtr) : Prop := (s.dirAddr d).val.toNat % 4096 = 0

instance (s : MemoryState) (d : DirPtr) : Decidable (DirAligned s d) :=
  inferInstanceAs (Decidable (_ = _))

/-- CR3 holds what `switch_directory` loads for the directory `d`. -/
def Loaded (s : MemoryState) (d : DirPtr) : Prop := s.cr3 = some ⟨s.tablesPhysicalAddr d, d⟩

/-- The paging bit of CR0 is set. -/
def PagingOn (s : MemoryState) : Prop := s.cr0.getLsbD 31 = true

instance (s : MemoryState) : Decidable (PagingOn s) := inferInstanceAs (Decidable (_ = _))

/-- Clearing the twelve low bits rounds down to a page. -/
lemma toNat_and_pageMask (x : BitVec 32) : (x &&& 0xFFFFF000#32).toNat = x.toNat / 4096 * 4096 := by
  have hshift : x &&& 0xFFFFF000#32 = (x >>> 12) <<< 12 := by
    apply BitVec.eq_of_getLsbD_eq
    intro i hi
    rw [BitVec.getLsbD_and, BitVec.getLsbD_shiftLeft, BitVec.getLsbD_ushiftRight]
    interval_cases i <;> simp
  have hx := x.isLt
  rw [hshift, BitVec.toNat_shiftLeft, BitVec.toNat_ushiftRight, Nat.shiftRight_eq_div_pow,
    Nat.shiftLeft_eq]
  omega

lemma PageDirectory.word_of_lt (dir : PageDirectory) {j : ℕ} (hj : j < 1024) :
    dir.word j = dir.tables ⟨j, hj⟩ := dif_pos hj

/-- The directory seen from the array `tables_physical` on. -/
lemma PageDirectory.seenFrom_page (dir : PageDirectory) : dir.seenFrom 4096 = dir := by
  have hwords : (fun i : Fin 1024 => dir.word (4096 / 4 + i)) = dir.tablesPhysical := by
    funext i
    have hindex : (4096 / 4 + i.val - 1024) % 1024 = i.val := by omega
    rw [PageDirectory.word, dif_neg (by omega)]
    exact congrArg dir.tablesPhysical (Fin.ext hindex)
  rw [PageDirectory.seenFrom, hwords]

section

variable {s : MemoryState} {d : DirPtr}

/-- The processor starts as many bytes before `tables_physical` as that is past a page. -/
lemma Loaded.loadedDirectory_eq (h : Loaded s d) :
    s.loadedDirectory =
      some ((s.dirs d).seenFrom (4096 - (s.dirAddr d).val.toNat % 4096)) := by
  have hoffset : ((s.tablesPhysicalAddr d &&& 0xFFFFF000#32) - (s.dirAddr d).val).toNat =
      4096 - (s.dirAddr d).val.toNat % 4096 := by
    have hmask := toNat_and_pageMask (s.tablesPhysicalAddr d)
    have haddr := (s.dirAddr d).val.isLt
    rw [MemoryState.tablesPhysicalAddr, BitVec.toNat_add] at hmask
    rw [BitVec.toNat_sub, MemoryState.tablesPhysicalAddr, hmask]
    simp only [BitVec.toNat_ofNat]
    omega
  rw [MemoryState.loadedDirectory, h, Option.map_some, hoffset]

/-- The words of an aligned directory are seen as they are. -/
lemma Loaded.of_aligned (h : Loaded s d) (haligned : DirAligned s d) :
    s.loadedDirectory = some (s.dirs d) := by
  rw [DirAligned] at haligned
  rw [h.loadedDirectory_eq, haligned, PageDirectory.seenFrom_page]

/-- The first word of a directory that is not aligned is seen to be a pointer. -/
lemma Loaded.of_not_aligned (h : Loaded s d) (haligned : ¬ DirAligned s d) :
    ∃ dir i, s.loadedDirectory = some dir ∧ dir.tablesPhysical 0 = (s.dirs d).tables i := by
  rw [DirAligned] at haligned
  have hword := (s.dirAddr d).property
  exact ⟨_, ⟨(4096 - (s.dirAddr d).val.toNat % 4096) / 4, by omega⟩, h.loadedDirectory_eq,
    PageDirectory.word_of_lt _ (by omega)⟩

end

/-! ## The walk -/

section

variable {m : Memory} {dir : PageDirectory} {virt : BitVec 32}

/-- Nothing is mapped through an absent directory word. -/
lemma pageWalk_of_absent (h : (dir.tablesPhysical (tableIndex virt)).getLsbD 0 = false) :
    pageWalk m dir virt = none := by
  simp only [pageWalk, h]
  rfl

/-- The walk through a present directory word that names the frame `f`. -/
lemma pageWalk_of_frame {f : ℕ} (hp : (dir.tablesPhysical (tableIndex virt)).getLsbD 0 = true)
    (hf : (dir.tablesPhysical (tableIndex virt)).toNat / 4096 = f) :
    pageWalk m dir virt =
      entryTarget (load32 m (wordAddr (frameAddr f) (entryIndex virt))) virt := by
  unfold pageWalk frameAddr
  dsimp only
  rw [if_pos hp, hf, Nat.mul_comm 4096 f]

/-- A filled entry maps its page to the page of `phys`. -/
lemma entryTarget_filledEntry (phys flags entry virt : BitVec 32) :
    entryTarget (filledEntry phys flags entry) virt =
      some (BitVec.ofNat 32 (phys.toNat / 4096 * 4096 + virt.toNat % 4096)) := by
  rw [entryTarget, if_pos (filledEntry_present phys flags entry), filledEntry_frame]

/-- A cleared entry maps nothing. -/
lemma entryTarget_clearedEntry (virt : BitVec 32) : entryTarget clearedEntry virt = none := rfl

end

end VVBright
