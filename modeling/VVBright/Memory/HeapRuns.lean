import VVBright.Memory.Client

/-!
# Runs of the heap

What a bump allocator owes its clients is `HeapSound`: the position stays inside the heap, and the
blocks handed out are aligned, lie inside the heap and do not overlap.  `kmalloc` computes the new
position modulo `2 ^ 32` and compares it with the end of the heap, so it keeps this promise exactly
as long as no request carries the position, rounded up, past `2 ^ 32`
(`heapSound_iff_noWrap`).
-/

namespace VVBright

open Traced

/-- The calls of a heap client. -/
inductive HeapOp where
  | kmalloc (size : BitVec 32)
  | kfree (ptr : BitVec 32)

/-- A heap request as a call of the memory manager. -/
def HeapOp.call : HeapOp → Call
  | kmalloc size => .kmalloc size
  | kfree ptr => .kfree ptr

/-- One heap request. -/
def heapStep (op : HeapOp) (c : Client) : Client := Client.step op.call c

/-- The client of a heap that `heap_init` has just set up. -/
def heapClient (s : MemoryState) : Client := Client.start (heapInit.exec s)

/-- Two blocks, given by address and size, do not overlap. -/
def BlocksApart (b b' : BitVec 32 × BitVec 32) : Prop :=
  b.1.toNat + b.2.toNat ≤ b'.1.toNat ∨ b'.1.toNat + b'.2.toNat ≤ b.1.toNat

/-- What the heap owes its clients.  Addresses and sizes are added without wrap-around. -/
structure HeapSound (c : Client) : Prop where
  /-- The position is not below the heap. -/
  start_le : c.st.heapStart.toNat ≤ c.st.heapPosition.toNat
  /-- The position is not above the heap. -/
  le_end : c.st.heapPosition.toNat ≤ c.st.heapEnd.toNat
  /-- Blocks are aligned to eight bytes. -/
  aligned : ∀ b ∈ c.blocks, b.1.toNat % 8 = 0
  /-- Blocks lie inside the heap. -/
  inside : ∀ b ∈ c.blocks, c.st.heapStart.toNat ≤ b.1.toNat ∧
    b.1.toNat + b.2.toNat ≤ c.st.heapEnd.toNat
  /-- Blocks do not overlap. -/
  apart : c.blocks.Pairwise BlocksApart

/-- The request, rounded up and added to the position, stays below `2 ^ 32`. -/
def NoWrap : HeapOp → Client → Prop
  | .kmalloc size, c => c.st.heapPosition.toNat + roundUp8 size.toNat < 2 ^ 32
  | .kfree _, _ => True

/-- The invariant that carries `HeapSound`: the blocks end at or below the position, which is a
multiple of eight. -/
structure HeapInv (c : Client) : Prop where
  start_eq : c.st.heapStart = 0x200000#32
  end_eq : c.st.heapEnd = 0x400000#32
  start_le : 0x200000 ≤ c.st.heapPosition.toNat
  le_end : c.st.heapPosition.toNat ≤ 0x400000
  position_aligned : c.st.heapPosition.toNat % 8 = 0
  aligned : ∀ b ∈ c.blocks, b.1.toNat % 8 = 0
  start_le_block : ∀ b ∈ c.blocks, 0x200000 ≤ b.1.toNat
  block_le : ∀ b ∈ c.blocks, b.1.toNat + b.2.toNat ≤ c.st.heapPosition.toNat
  apart : c.blocks.Pairwise BlocksApart

lemma heapInv_init (s : MemoryState) : HeapInv (heapClient s) where
  start_eq := rfl
  end_eq := rfl
  start_le := le_rfl
  le_end := by change 0x200000 ≤ 0x400000; norm_num
  position_aligned := by change 0x200000 % 8 = 0; norm_num
  aligned := by simp [heapClient, Client.start]
  start_le_block := by simp [heapClient, Client.start]
  block_le := by simp [heapClient, Client.start]
  apart := List.Pairwise.nil

section

variable {c : Client}

/-- The invariant gives what is owed. -/
lemma HeapInv.sound (h : HeapInv c) : HeapSound c where
  start_le := by rw [h.start_eq]; exact h.start_le
  le_end := by rw [h.end_eq]; exact h.le_end
  aligned := h.aligned
  inside := by
    intro b hb
    rw [h.start_eq, h.end_eq]
    exact ⟨h.start_le_block b hb, (h.block_le b hb).trans h.le_end⟩
  apart := h.apart

/-- The position inside the heap is not the null pointer. -/
lemma HeapInv.position_ne_null (h : HeapInv c) : c.st.heapPosition ≠ NULL := by
  intro h0
  have hpos := h.start_le
  rw [h0] at hpos
  exact absurd hpos (by decide)

/-- A granted request appends the block `[position, position + size)`. -/
lemma HeapInv.step_of_granted (h : HeapInv c) {size : BitVec 32}
    (hle : ¬ c.st.heapPosition + heapSize size > c.st.heapEnd) :
    (heapStep (.kmalloc size) c).st =
        { c.st with heapPosition := c.st.heapPosition + heapSize size } ∧
      (heapStep (.kmalloc size) c).blocks = (c.st.heapPosition, size) :: c.blocks := by
  obtain ⟨heval, hexec⟩ := kmalloc_of_le hle
  constructor
  · exact hexec
  · change (if (kmalloc size).eval c.st = NULL then _ else _) = _
    rw [heval, if_neg h.position_ne_null]

/-- A refused request changes nothing. -/
lemma heapStep_of_refused {size : BitVec 32}
    (hgt : c.st.heapPosition + heapSize size > c.st.heapEnd) :
    heapStep (.kmalloc size) c = c := by
  obtain ⟨heval, hexec⟩ := kmalloc_of_gt hgt
  rw [heapStep, HeapOp.call, Client.step, hexec, if_pos heval]

/-- A request that does not wrap around keeps the invariant. -/
theorem HeapInv.step (h : HeapInv c) {op : HeapOp} (hop : NoWrap op c) :
    HeapInv (heapStep op c) := by
  cases op with
  | kfree ptr => exact ⟨h.1, h.2, h.3, h.4, h.5, h.6, h.7, h.8, h.9⟩
  | kmalloc size =>
    have hsize : (heapSize size).toNat = roundUp8 size.toNat :=
      toNat_heapSize_of_le (by rw [NoWrap] at hop; omega)
    have hround : size.toNat ≤ roundUp8 size.toNat ∧ roundUp8 size.toNat % 8 = 0 := by
      rw [roundUp8]
      omega
    rw [NoWrap] at hop
    have hsum : (c.st.heapPosition + heapSize size).toNat =
        c.st.heapPosition.toNat + roundUp8 size.toNat := by
      rw [BitVec.toNat_add, hsize, Nat.mod_eq_of_lt hop]
    by_cases hgt : c.st.heapPosition + heapSize size > c.st.heapEnd
    · rw [heapStep_of_refused hgt]
      exact h
    · obtain ⟨hst, hblocks⟩ := h.step_of_granted hgt
      have hend : c.st.heapPosition.toNat + roundUp8 size.toNat ≤ 0x400000 := by
        have hle : (c.st.heapPosition + heapSize size).toNat ≤ c.st.heapEnd.toNat :=
          Nat.le_of_not_lt fun hlt => hgt (BitVec.lt_def.mpr hlt)
        rw [hsum, h.end_eq] at hle
        exact hle
      have hstart := h.start_le
      have haligned := h.position_aligned
      constructor
      all_goals simp only [hst, hblocks, hsum, List.mem_cons, forall_eq_or_imp]
      · exact h.start_eq
      · exact h.end_eq
      · omega
      · omega
      · omega
      · exact ⟨haligned, h.aligned⟩
      · exact ⟨hstart, h.start_le_block⟩
      · refine ⟨by omega, fun b hb => ?_⟩
        have hb' := h.block_le b hb
        omega
      · refine List.pairwise_cons.mpr ⟨fun b hb => ?_, h.apart⟩
        exact Or.inr (h.block_le b hb)

/-- A request that wraps around is granted a block that leaves the heap. -/
theorem HeapInv.not_sound_of_wrap (h : HeapInv c) {op : HeapOp} (hop : ¬ NoWrap op c) :
    ¬ HeapSound (heapStep op c) := by
  cases op with
  | kfree ptr => exact absurd trivial hop
  | kmalloc size =>
    rw [NoWrap, Nat.not_lt] at hop
    have hstart := h.start_le
    have hend := h.le_end
    have hlt := size.isLt
    have hsize := toNat_heapSize size
    rw [roundUp8] at hop
    -- the sum wraps to at most the old position, so the request is granted
    have hgranted : ¬ c.st.heapPosition + heapSize size > c.st.heapEnd := by
      intro hgt
      have hgt' := BitVec.lt_def.mp hgt
      rw [BitVec.toNat_add, hsize, h.end_eq] at hgt'
      change 0x400000 < _ at hgt'
      omega
    obtain ⟨hst, hblocks⟩ := h.step_of_granted hgranted
    intro hsound
    have hinside := hsound.inside (c.st.heapPosition, size) (by rw [hblocks]; simp)
    rw [hst] at hinside
    have hle : c.st.heapPosition.toNat + size.toNat ≤ c.st.heapEnd.toNat := hinside.2
    rw [h.end_eq] at hle
    change _ ≤ 0x400000 at hle
    omega

end

/-- **Exactly when the heap is sound.**  After `heap_init`, every state of a run of `kmalloc` and
`kfree` calls is sound if and only if no request of the run, rounded up to a multiple of eight and
added to the position it is made at, reaches `2 ^ 32`. -/
theorem heapSound_iff_noWrap (s : MemoryState) (ops : List HeapOp) :
    (∀ pre, pre <+: ops → HeapSound (runActions heapStep pre (heapClient s))) ↔
      Along heapStep NoWrap ops (heapClient s) := by
  have hinit := heapInv_init s
  generalize heapClient s = c at hinit ⊢
  constructor
  · intro hsound
    refine along_of_forall_initial (K := fun _ _ => True) hinit ?_
        (fun op t ht _ hop => ht.step hop)
      (fun op t ht _ hgood => by_contra fun hwrap => ht.not_sound_of_wrap hwrap hgood) hsound
    exact along_true ops c
  · intro hrun pre hpre
    have hinv := hrun.invariant_initial hinit (fun op t ht hop => HeapInv.step ht hop) hpre
    exact hinv.sound

/-- A request of `0xFFF00000` bytes is granted and moves the position below the heap. -/
theorem heap_unsound_of_huge_request :
    (kmalloc 0xFFF00000#32).eval (heapInit.exec blankState) = 0x200000#32 ∧
      ((kmalloc 0xFFF00000#32).exec (heapInit.exec blankState)).heapPosition = 0x100000#32 ∧
      ¬ HeapSound (runActions heapStep [.kmalloc 0xFFF00000#32] (heapClient blankState)) := by
  refine ⟨by decide, by decide, ?_⟩
  intro h
  exact absurd h.start_le (by decide)

end VVBright
