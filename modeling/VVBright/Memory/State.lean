import VVBright.Foundation.Traced
import VVBright.Foundation.ByteMemory
import VVBright.Foundation.Words

/-!
# The state of the memory manager

The static variables of `memory.c` together with the physical memory they point into and the two
control registers the file writes.  The frame bitmap and the page tables are not separate
structures: as in the source they are words of physical memory, reached through the pointers
`frames` and `tables[i]`, so that nothing keeps one from being laid over the other.  Page
directories are kept apart from physical memory and are named by a `DirPtr`; where the linker or the
caller has put them is `dirAddr`, which matters for CR3, whose low twelve bits the processor
ignores.

Functions of `memory.c` are `MemM` computations.  Every dereference of a pointer into physical
memory goes through `loadWord` or `storeWord` and is recorded with the state it happens in.  The
pointer is taken as a physical address, which is what the code relies on; once paging is enabled
this is right where the loaded directory maps the address to itself, and `Memory.Reachable` says
when it does.
-/

namespace VVBright

/-- `PAGE_SIZE`. -/
def pageSize : ℕ := 4096

/-- `HEAP_MEMORY_START`. -/
def heapMemoryStart : BitVec 32 := 0x200000#32

/-- `HEAP_MEMORY_END`. -/
def heapMemoryEnd : BitVec 32 := 0x400000#32

/-- The null pointer. -/
def NULL : BitVec 32 := 0#32

/-- `page_directory_t`: the software pointers to the page tables, the directory words read by the
processor, and the reference counts. -/
structure PageDirectory where
  /-- `tables[1024]`. -/
  tables : Fin 1024 → BitVec 32
  /-- `tables_physical[1024]`. -/
  tablesPhysical : Fin 1024 → BitVec 32
  /-- `refcount[1024]`. -/
  refcount : Fin 1024 → BitVec 16

/-- The identity of a page directory, standing for a `page_directory_t*`. -/
abbrev DirPtr := ℕ

/-- `&kernel_directory`, the only directory `memory.c` itself allocates. -/
def kernelDirectory : DirPtr := 0

/-- An address a `uint32_t` can have: the two arrays of words make a `page_directory_t` aligned to
four bytes, and nothing in the source asks for more. -/
abbrev WordAddress := { a : BitVec 32 // a.toNat % 4 = 0 }

/-- The value of CR3, and the directory it points into. -/
structure Cr3 where
  address : BitVec 32
  directory : DirPtr

/-- Physical memory, the page directories, the static variables of `memory.c` and the control
registers written by it. -/
structure MemoryState where
  /-- Physical memory. -/
  mem : Memory
  /-- The page directories. -/
  dirs : DirPtr → PageDirectory
  /-- The addresses of the page directories. -/
  dirAddr : DirPtr → WordAddress
  /-- `current_directory`. -/
  currentDirectory : Option DirPtr
  /-- CR3, once it has been loaded. -/
  cr3 : Option Cr3
  /-- CR0; bit 31 enables paging. -/
  cr0 : BitVec 32
  /-- `frames`, the address of the frame bitmap. -/
  frames : BitVec 32
  /-- `n_frames`. -/
  nFrames : BitVec 32
  /-- `heap_start`. -/
  heapStart : BitVec 32
  /-- `heap_end`. -/
  heapEnd : BitVec 32
  /-- `heap_position`. -/
  heapPosition : BitVec 32
  /-- The strings passed to `terminal_writestring`. -/
  printed : List String

/-- `&d->tables_physical`, which follows the 4096 bytes of `tables`. -/
def MemoryState.tablesPhysicalAddr (s : MemoryState) (d : DirPtr) : BitVec 32 :=
  (s.dirAddr d).val + 4096#32

/-- The machine before any initialisation, with all memory and all variables zero.  The directories
are page-aligned, one after the other from `0x110000` on. -/
def blankState : MemoryState where
  mem _ := 0#8
  dirs _ := ⟨fun _ => NULL, fun _ => 0#32, fun _ => 0#16⟩
  dirAddr d := ⟨BitVec.ofNat 32 (0x110000 + 0x3000 * d), by rw [BitVec.toNat_ofNat]; omega⟩
  currentDirectory := none
  cr3 := none
  cr0 := 0#32
  frames := NULL
  nFrames := 0#32
  heapStart := 0#32
  heapEnd := 0#32
  heapPosition := 0#32
  printed := []

/-- Computations of `memory.c`. -/
abbrev MemM (α : Type) := Traced MemoryState (BitVec 32) α

open Traced

/-- Dereference a pointer to a 32-bit word. -/
def loadWord (a : BitVec 32) : MemM (BitVec 32) := do
  touch a
  gets fun s => load32 s.mem a

/-- Store a 32-bit word through a pointer. -/
def storeWord (a v : BitVec 32) : MemM Unit := do
  touch a
  modify fun s => { s with mem := store32 s.mem a v }

/-- A call of `terminal_writestring`. -/
def writestring (text : String) : MemM Unit :=
  modify fun s => { s with printed := s.printed ++ [text] }

section

variable (a v : BitVec 32) (s : MemoryState) (P : MemoryState → BitVec 32 → Prop)

@[simp] lemma eval_loadWord : (loadWord a).eval s = load32 s.mem a := rfl

@[simp] lemma exec_loadWord : (loadWord a).exec s = s := rfl

@[simp] lemma exec_storeWord :
    (storeWord a v).exec s = { s with mem := store32 s.mem a v } := rfl

lemma exec_writestring (text : String) :
    (writestring text).exec s = { s with printed := s.printed ++ [text] } := rfl

@[simp] lemma accessesIn_loadWord : AccessesIn P (loadWord a) s ↔ P s a := by
  simp [loadWord]

@[simp] lemma accessesIn_storeWord : AccessesIn P (storeWord a v) s ↔ P s a := by
  simp [storeWord]

end

/-- The address of the word `idx` of an array of words at `base`. -/
def wordAddr (base : BitVec 32) (idx : ℕ) : BitVec 32 := base + BitVec.ofNat 32 (4 * idx)

/-- The address of a word in an array that does not wrap around. -/
lemma toNat_wordAddr {base : BitVec 32} {idx : ℕ} (h : base.toNat + 4 * idx < 2 ^ 32) :
    (wordAddr base idx).toNat = base.toNat + 4 * idx := by
  rw [wordAddr]
  bv_omega

/-- Different words of one array are apart. -/
lemma wordAddr_apart {base : BitVec 32} {i j : ℕ} (hi : i < 2 ^ 30) (hj : j < 2 ^ 30)
    (hij : i ≠ j) : WordsApart (wordAddr base i) (wordAddr base j) :=
  wordsApart_of_ne hi hj hij

end VVBright
