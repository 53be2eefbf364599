import VVBright.Memory.Translation

/-!
# Permissions of a page

The processor grants an access only if both levels of the walk do: a page is writable, or
accessible from user mode, when the bit is set in the directory word and in the page entry.
`map_page` writes the page entry on every call, but the directory word only when it creates the
page table, with the flags of that call.

In a directory built by `map_page` with flags below `0x20` the directory word and the pointer of an
occupied slot name the same table (`Linked`), so that the entry the processor reads is the one
`map_page` wrote last.  What a call grants is then decided by the directory word it finds.  A call
that creates the table writes the word itself; its flags may be so large that the word names another
page than the table, and the entry the processor reads there decides (`grants_mapPage_iff`).
-/

namespace VVBright

open Traced

/-! ## What the processor grants -/

/-- The address of the table a directory word names. -/
def tableOf (word : BitVec 32) : BitVec 32 := BitVec.ofNat 32 (word.toNat / 4096 * 4096)

/-- The page entry the walk for `virt` reads. -/
def walkEntry (mem : Memory) (dir : PageDirectory) (virt : BitVec 32) : BitVec 32 :=
  load32 mem (wordAddr (tableOf (dir.tablesPhysical (tableIndex virt))) (entryIndex virt))

/-- The bit `k` is set at both levels of the walk. -/
def Permits (k : ℕ) (mem : Memory) (dir : PageDirectory) (virt : BitVec 32) : Prop :=
  (dir.tablesPhysical (tableIndex virt)).getLsbD k = true ∧
    (walkEntry mem dir virt).getLsbD k = true

/-- The page of `virt` can be written. -/
def Writable : Memory → PageDirectory → BitVec 32 → Prop := Permits 1

/-- The page of `virt` can be accessed from user mode. -/
def UserAccessible : Memory → PageDirectory → BitVec 32 → Prop := Permits 2

/-! ## Directories built by `map_page` -/

/-- A call of `map_page` for one directory, with flags below `0x20`. -/
structure MapRequest where
  virt : BitVec 32
  phys : BitVec 32
  flags : BitVec 32
  flags_lt : flags.toNat < 0x20

/-- One call of `map_page` for the directory `d`. -/
def mapStep (d : DirPtr) (r : MapRequest) (s : MemoryState) : MemoryState :=
  (mapPage d r.virt r.phys r.flags).exec s

/-- A directory without page tables. -/
def EmptyDirectory (dir : PageDirectory) : Prop :=
  ∀ i, dir.tables i = NULL ∧ dir.tablesPhysical i = 0#32

/-- The directory word of every occupied slot names the table the pointer names. -/
def Linked (dir : PageDirectory) : Prop :=
  ∀ i, dir.tables i ≠ NULL → tableOf (dir.tablesPhysical i) = dir.tables i

/-- The flags were granted to the page of `virt`, and no others. -/
def Grants (flags : BitVec 32) (t : MemoryState) (d : DirPtr) (virt : BitVec 32) : Prop :=
  (UserAccessible t.mem (t.dirs d) virt ↔ flags.getLsbD 2 = true) ∧
    (Writable t.mem (t.dirs d) virt ↔ flags.getLsbD 1 = true)

/-- The permission bits of `flags` are set in the word. -/
def HasPermissions (flags word : BitVec 32) : Prop :=
  (flags.getLsbD 2 = true → word.getLsbD 2 = true) ∧
    (flags.getLsbD 1 = true → word.getLsbD 1 = true)

/-- The directory word `map_page` builds for a new table. -/
def newWord (flags : BitVec 32) (s : MemoryState) : BitVec 32 :=
  allocFrame.eval s ||| flags ||| 0x01#32

/-- What decides about the permissions before a call.  If there is a page table, the directory word
has the permission bits of `flags`.  If not, the word of the new table names its frame; or it names
another page, and the entry for `virt` there has the bits. -/
def WordPermits (flags : BitVec 32) (s : MemoryState) (d : DirPtr) (virt : BitVec 32) : Prop :=
  if (s.dirs d).tables (tableIndex virt) = NULL then
    tableOf (newWord flags s) = allocFrame.eval s ∨
      HasPermissions flags (load32 (allocFrame.exec s).mem
        (wordAddr (tableOf (newWord flags s)) (entryIndex virt)))
  else
    HasPermissions flags ((s.dirs d).tablesPhysical (tableIndex virt))

/-! ## The table `map_page` writes to -/

/-- The directory word of an aligned table names the table. -/
lemma tableOf_directoryWord {table flags : BitVec 32} (htable : table.toNat % 4096 = 0)
    (hflags : flags.toNat < 0x1000) : tableOf (table ||| flags ||| 0x01#32) = table := by
  rw [tableOf, directoryWord_page _ hflags]
  apply BitVec.eq_of_toNat_eq
  rw [BitVec.toNat_ofNat]
  have := table.isLt
  omega

/-- With flags below `0x1000` the new directory word names the new table. -/
lemma tableOf_newWord {flags : BitVec 32} (hflags : flags.toNat < 0x1000) (s : MemoryState) :
    tableOf (newWord flags s) = allocFrame.eval s :=
  tableOf_directoryWord (allocFrame_aligned s) hflags

/-- The words of a page are off the page table in another page. -/
lemma wordAddr_offTable {table a : BitVec 32} (htable : table.toNat % 4096 = 0)
    (ha : a.toNat % 4096 = 0) (hne : a ≠ table) {e : ℕ} (he : e < 1024) :
    OffTable table (wordAddr a e) := by
  intro j hj
  have hlt := table.isLt
  have hlt' := a.isLt
  have hpages : a.toNat ≠ table.toNat := fun h => hne (BitVec.eq_of_toNat_eq h)
  have htable' : (wordAddr table j).toNat = table.toNat + 4 * j := toNat_wordAddr (by omega)
  have ha' : (wordAddr a e).toNat = a.toNat + 4 * e := toNat_wordAddr (by omega)
  rcases Nat.lt_or_gt_of_ne hpages with h | h
  · exact (wordsApart_of_le (by omega) (by omega)).symm
  · exact wordsApart_of_le (by omega) (by omega)

/-- The low bits of an aligned address are clear. -/
lemma getLsbD_of_aligned {a : BitVec 32} (ha : a.toNat % 4096 = 0) {k : ℕ} (hk : k < 12) :
    a.getLsbD k = false := by
  have hdvd : a.toNat = 2 ^ 12 * (a.toNat / 4096) := by omega
  rw [BitVec.getLsbD, hdvd, Nat.testBit_two_pow_mul]
  simp [hk]

/-- The permission bits of the directory word of a new table are those of the flags. -/
lemma getLsbD_directoryWord {table flags : BitVec 32} (htable : table.toNat % 4096 = 0) {k : ℕ}
    (hk : 1 ≤ k) (hk' : k < 12) :
    (table ||| flags ||| 0x01#32).getLsbD k = flags.getLsbD k := by
  have hone : (0x01#32).getLsbD k = false := by
    rw [show (0x01#32) = 1#32 <<< 0 from rfl, getLsbD_one_shiftLeft (by norm_num)]
    simp
    omega
  rw [BitVec.getLsbD_or, BitVec.getLsbD_or, getLsbD_of_aligned htable hk', hone, Bool.false_or,
    Bool.or_false]

/-- `(flags & (1 << k)) ? 1 : 0` is the bit `k` of the flags. -/
lemma getLsbD_flagBit (flags : BitVec 32) {k : ℕ} (hk : k < 32) :
    (flagBit flags (1#32 <<< k)).getLsbD 0 = flags.getLsbD k := by
  rw [flagBit]
  split
  · rename_i hne
    rw [ne_eq, and_one_shiftLeft_eq_zero_iff flags hk, Bool.not_eq_false] at hne
    rw [hne]
    rfl
  · rename_i heq
    rw [not_not, and_one_shiftLeft_eq_zero_iff flags hk] at heq
    rw [heq]
    rfl

/-- The permission bits of a filled entry are those of the flags. -/
lemma filledEntry_permissions (phys flags entry : BitVec 32) :
    (filledEntry phys flags entry).getLsbD 1 = flags.getLsbD 1 ∧
      (filledEntry phys flags entry).getLsbD 2 = flags.getLsbD 2 := by
  constructor
  · rw [getLsbD_filledEntry phys flags entry (by norm_num), if_neg (by norm_num), if_pos rfl]
    exact getLsbD_flagBit flags (k := 1) (by norm_num)
  · rw [getLsbD_filledEntry phys flags entry (by norm_num), if_neg (by norm_num),
      if_neg (by norm_num), if_pos rfl]
    exact getLsbD_flagBit flags (k := 2) (by norm_num)

section

variable {d : DirPtr} {s : MemoryState} (virt phys flags : BitVec 32)

/-- The directory word of the slot after a call. -/
lemma tablesPhysical_mapPage_slot :
    (((mapPage d virt phys flags).exec s).dirs d).tablesPhysical (tableIndex virt) =
      if (s.dirs d).tables (tableIndex virt) = NULL then newWord flags s
      else (s.dirs d).tablesPhysical (tableIndex virt) := by
  rw [tablesPhysical_mapPage]
  simp only [and_true]
  rfl

/-- Every call with small flags keeps the directory linked. -/
lemma Linked.mapStep (h : Linked (s.dirs d)) (r : MapRequest) :
    Linked ((mapStep d r s).dirs d) := by
  intro i
  rw [VVBright.mapStep, tables_mapPage, tablesPhysical_mapPage]
  split
  · intro _
    exact tableOf_newWord (r.flags_lt.trans (by norm_num)) s
  · exact h i

/-- With a page table that the directory word names, the processor reads the entry the call has
filled. -/
lemma walkEntry_mapPage_of_table (hne : (s.dirs d).tables (tableIndex virt) ≠ NULL)
    (hlink : tableOf ((s.dirs d).tablesPhysical (tableIndex virt)) =
      (s.dirs d).tables (tableIndex virt)) :
    ∃ old, walkEntry ((mapPage d virt phys flags).exec s).mem
      (((mapPage d virt phys flags).exec s).dirs d) virt = filledEntry phys flags old := by
  rw [walkEntry, tablesPhysical_mapPage_slot, if_neg hne, hlink,
    exec_mapPage_of_table _ _ rfl hne, mem_fillState, load32_store32_same]
  exact ⟨_, rfl⟩

/-- With a new table that the new directory word names, too. -/
lemma walkEntry_mapPage_of_null (hnull : (s.dirs d).tables (tableIndex virt) = NULL)
    (hword : tableOf (newWord flags s) = allocFrame.eval s) :
    ∃ old, walkEntry ((mapPage d virt phys flags).exec s).mem
      (((mapPage d virt phys flags).exec s).dirs d) virt = filledEntry phys flags old := by
  rw [walkEntry, tablesPhysical_mapPage_slot, if_pos hnull, hword,
    exec_mapPage_of_null _ _ hnull, mem_fillState, load32_store32_same]
  exact ⟨_, rfl⟩

/-- If the new directory word names another page, the processor reads what was there before. -/
lemma walkEntry_mapPage_of_stray (hnull : (s.dirs d).tables (tableIndex virt) = NULL)
    (hword : tableOf (newWord flags s) ≠ allocFrame.eval s) :
    walkEntry ((mapPage d virt phys flags).exec s).mem
        (((mapPage d virt phys flags).exec s).dirs d) virt =
      load32 (allocFrame.exec s).mem (wordAddr (tableOf (newWord flags s)) (entryIndex virt)) := by
  have hpage : (tableOf (newWord flags s)).toNat % 4096 = 0 := by
    rw [tableOf, BitVec.toNat_ofNat]
    omega
  have hoff := wordAddr_offTable (allocFrame_aligned s) hpage hword (entryIndex_lt virt)
  rw [walkEntry, tablesPhysical_mapPage_slot, if_pos hnull, exec_mapPage_of_null _ _ hnull,
    mem_fillState, load32_store32_of_apart _ _ (hoff _ (entryIndex_lt virt)), mem_newTableState,
    load32_clearTableMem_of_off _ hoff le_rfl]

/-- A call grants what it is asked for exactly as the directory word permits. -/
theorem grants_mapPage_iff (h : Linked (s.dirs d)) :
    Grants flags ((mapPage d virt phys flags).exec s) d virt ↔ WordPermits flags s d virt := by
  rw [Grants, UserAccessible, Writable, Permits, Permits, tablesPhysical_mapPage_slot, WordPermits]
  by_cases hnull : (s.dirs d).tables (tableIndex virt) = NULL
  · have haligned := allocFrame_aligned s
    rw [if_pos hnull, if_pos hnull]
    -- The new directory word has the permission bits of the flags, so the entry decides.
    rw [show (newWord flags s).getLsbD 2 = flags.getLsbD 2 from
        getLsbD_directoryWord haligned (by norm_num) (by norm_num),
      show (newWord flags s).getLsbD 1 = flags.getLsbD 1 from
        getLsbD_directoryWord haligned (by norm_num) (by norm_num)]
    by_cases hword : tableOf (newWord flags s) = allocFrame.eval s
    · obtain ⟨old, hentry⟩ := walkEntry_mapPage_of_null virt phys flags hnull hword
      obtain ⟨hrw, huser⟩ := filledEntry_permissions phys flags old
      rw [hentry, hrw, huser, and_self, and_self]
      exact iff_of_true ⟨Iff.rfl, Iff.rfl⟩ (Or.inl hword)
    · rw [walkEntry_mapPage_of_stray virt phys flags hnull hword, or_iff_right hword]
      exact and_congr and_iff_left_iff_imp and_iff_left_iff_imp
  · obtain ⟨old, hentry⟩ := walkEntry_mapPage_of_table virt phys flags hnull (h _ hnull)
    obtain ⟨hrw, huser⟩ := filledEntry_permissions phys flags old
    rw [if_neg hnull, if_neg hnull, hentry, hrw, huser]
    exact and_congr and_iff_right_iff_imp and_iff_right_iff_imp

end

lemma EmptyDirectory.linked {dir : PageDirectory} (h : EmptyDirectory dir) : Linked dir :=
  fun i hne => absurd (h i).1 hne

/-- Any number of calls keep the directory linked. -/
lemma Linked.runActions {d : DirPtr} {s : MemoryState} (h : Linked (s.dirs d))
    (calls : List MapRequest) : Linked ((runActions (VVBright.mapStep d) calls s).dirs d) := by
  induction calls generalizing s with
  | nil => exact h
  | cons r calls ih => exact ih (h.mapStep r)

/-- **When `map_page` grants the permissions it is asked for.**  After any calls of `map_page` with
flags below `0x20` for a directory that was empty, one more call with any flags makes the page
user-accessible and writable as its flags say if and only if the directory word it finds has the
permission bits of the flags, or it writes the directory word itself and that word names the new
table, as it does for flags below `0x1000`, or a page whose entry has the bits. -/
theorem mapPage_grants_iff_wordPermits (d : DirPtr) (s : MemoryState)
    (hempty : EmptyDirectory (s.dirs d)) (calls : List MapRequest) (virt phys flags : BitVec 32) :
    Grants flags ((mapPage d virt phys flags).exec (runActions (mapStep d) calls s)) d virt ↔
      WordPermits flags (runActions (mapStep d) calls s) d virt :=
  grants_mapPage_iff virt phys flags (hempty.linked.runActions calls)

/-- A kernel page: writable, not user-accessible. -/
def kernelPage : MapRequest := ⟨0x400000#32, 0x5000#32, 0x03#32, by decide⟩

/-- The kernel page, mapped while only frame 0 is taken, gets a page table in frame 1 and leaves a
directory word without the user bit. -/
lemma mapStep_kernelPage : ∃ s, s = allocFrame.exec emptyBitmap ∧
    EmptyDirectory (s.dirs kernelDirectory) ∧ allocFrame.eval s = 0x1000#32 ∧
      ((mapStep kernelDirectory kernelPage s).dirs kernelDirectory).tables
        (tableIndex 0x401000#32) = 0x1000#32 ∧
      ((mapStep kernelDirectory kernelPage s).dirs kernelDirectory).tablesPhysical
        (tableIndex 0x401000#32) = 0x1003#32 := by
  obtain ⟨hready, hmarked, -⟩ := coherent_allocFrame_emptyBitmap
  have hempty : EmptyDirectory ((allocFrame.exec emptyBitmap).dirs kernelDirectory) := by
    rw [dirs_allocFrame]
    exact fun _ => ⟨rfl, rfl⟩
  obtain ⟨s, hs⟩ : ∃ s, s = allocFrame.exec emptyBitmap := ⟨_, rfl⟩
  rw [← hs] at hready hmarked hempty
  obtain ⟨-, heval, -, -⟩ := step_allocFrame_range (c := Client.start s) hready hmarked
    (by norm_num [frameCount])
  change allocFrame.eval s = 0x1000#32 at heval
  have hslot : tableIndex 0x401000#32 = tableIndex kernelPage.virt := by decide
  refine ⟨s, hs, hempty, heval, ?_, ?_⟩
  · rw [mapStep, tables_mapPage, hslot, if_pos ⟨(hempty _).1, rfl, rfl⟩, heval]
  · rw [mapStep, tablesPhysical_mapPage, hslot, if_pos ⟨(hempty _).1, rfl, rfl⟩, heval]
    rfl

/-- A second kernel page in the 4 MB of the first gets its permissions from the directory word that
the first has left.  The one page table is in a fresh frame other than frame 0. -/
theorem mapPage_grants_second_page :
    allocFrame.eval (allocFrame.exec emptyBitmap) = 0x1000#32 ∧
      Grants 0x03#32
        ((mapPage kernelDirectory 0x401000#32 0x6000#32 0x03#32).exec
          (runActions (mapStep kernelDirectory) [kernelPage] (allocFrame.exec emptyBitmap)))
        kernelDirectory 0x401000#32 := by
  obtain ⟨s, hs, hempty, heval, htable, hword⟩ := mapStep_kernelPage
  rw [← hs]
  refine ⟨heval, (mapPage_grants_iff_wordPermits kernelDirectory s hempty [kernelPage]
    0x401000#32 0x6000#32 0x03#32).mpr ?_⟩
  rw [runActions, runActions, WordPermits, htable, hword, if_neg (by decide)]
  exact ⟨by decide, by decide⟩

/-- After a kernel page has been mapped, a user page in the same 4 MB does not become
user-accessible.  The one page table is in a fresh frame other than frame 0. -/
theorem not_grants_userPage_after_kernelPage :
    EmptyDirectory ((allocFrame.exec emptyBitmap).dirs kernelDirectory) ∧
      allocFrame.eval (allocFrame.exec emptyBitmap) = 0x1000#32 ∧
      ¬ Grants 0x07#32
        ((mapPage kernelDirectory 0x401000#32 0x6000#32 0x07#32).exec
          (runActions (mapStep kernelDirectory) [kernelPage] (allocFrame.exec emptyBitmap)))
        kernelDirectory 0x401000#32 := by
  obtain ⟨s, hs, hempty, heval, htable, hword⟩ := mapStep_kernelPage
  rw [← hs]
  refine ⟨hempty, heval, ?_⟩
  rw [runActions, runActions, grants_mapPage_iff _ _ _ (hempty.linked.mapStep kernelPage),
    WordPermits, htable, hword, if_neg (by decide)]
  exact fun h => absurd (h.1 (by decide)) (by decide)

end VVBright
