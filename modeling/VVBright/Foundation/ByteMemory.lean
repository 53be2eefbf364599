import Mathlib.Tactic

/-!
# Byte-addressed memory with 32-bit addresses

A memory is a function from 32-bit addresses to bytes.  `load32` and `store32` are the
little-endian word accesses; an access at the top of the address space wraps around.

The algebra is the usual one: a word that was stored is read back (`load32_store32_same`), and a
store does not affect words that share no byte with it (`load32_store32_of_apart`).  `WordsApart`
is stated by modular differences, so that no bound on the addresses is needed; the two lemmas
`wordsApart_of_le` and `wordsApart_of_ne` produce it from ordinary arithmetic.

Records that are not made of words are stored with `storeBytes`; what one store does to a byte of a
record, given by its offset, is `storeBytes_offset`.  The variables of a program are regions of
bytes that are `Apart`.
-/

namespace VVBright

/-- A byte-addressed memory over 32-bit addresses. -/
abbrev Memory := BitVec 32 → BitVec 8

/-- The little-endian 32-bit word at the address `a`. -/
def load32 (m : Memory) (a : BitVec 32) : BitVec 32 :=
  m (a + 3#32) ++ m (a + 2#32) ++ m (a + 1#32) ++ m (a + 0#32)

/-- The memory after storing the word `v` at the address `a`. -/
def store32 (m : Memory) (a v : BitVec 32) : Memory := fun x =>
  if (x - a).toNat < 4 then v.extractLsb' (8 * (x - a).toNat) 8 else m x

/-- The words at `a` and at `b` share no byte. -/
def WordsApart (a b : BitVec 32) : Prop := 4 ≤ (b - a).toNat ∧ 4 ≤ (a - b).toNat

/-- Sharing no byte is symmetric. -/
lemma WordsApart.symm {a b : BitVec 32} (h : WordsApart a b) : WordsApart b a := ⟨h.2, h.1⟩

/-- Words at a distance of at least four bytes, neither of which wraps around, are apart. -/
lemma wordsApart_of_le {a b : BitVec 32} (h : a.toNat + 4 ≤ b.toNat)
    (hb : b.toNat + 4 ≤ 2 ^ 32) : WordsApart a b := by
  constructor <;> bv_omega

/-- Two words at different multiples of four bytes from one base are apart. -/
lemma wordsApart_of_ne {base : BitVec 32} {i j : ℕ} (hi : i < 2 ^ 30) (hj : j < 2 ^ 30)
    (hij : i ≠ j) :
    WordsApart (base + BitVec.ofNat 32 (4 * i)) (base + BitVec.ofNat 32 (4 * j)) := by
  constructor <;> bv_omega

/-- The bytes of a stored word. -/
lemma store32_inside (m : Memory) (a v : BitVec 32) {i : ℕ} (hi : i < 4) :
    store32 m a v (a + BitVec.ofNat 32 i) = v.extractLsb' (8 * i) 8 := by
  have h : (a + BitVec.ofNat 32 i - a).toNat = i := by bv_omega
  rw [store32, h, if_pos hi]

/-- A store leaves the bytes outside its word alone. -/
lemma store32_outside (m : Memory) {a x : BitVec 32} (v : BitVec 32) (h : 4 ≤ (x - a).toNat) :
    store32 m a v x = m x :=
  if_neg (by omega)

/-- A stored word is read back. -/
@[simp] theorem load32_store32_same (m : Memory) (a v : BitVec 32) :
    load32 (store32 m a v) a = v := by
  rw [load32,
    store32_inside m a v (show 0 < 4 by omega), store32_inside m a v (show 1 < 4 by omega),
    store32_inside m a v (show 2 < 4 by omega), store32_inside m a v (show 3 < 4 by omega),
    BitVec.extractLsb'_append_extractLsb'_eq_extractLsb' (by rfl),
    BitVec.extractLsb'_append_extractLsb'_eq_extractLsb' (by rfl),
    BitVec.extractLsb'_append_extractLsb'_eq_extractLsb' (by rfl)]
  simp

/-- The bytes of a word that was read. -/
lemma extractLsb'_load32 (m : Memory) (a : BitVec 32) {i : ℕ} (hi : i < 4) :
    (load32 m a).extractLsb' (8 * i) 8 = m (a + BitVec.ofNat 32 i) := by
  apply BitVec.eq_of_getLsbD_eq
  intro j hj
  rw [BitVec.getLsbD_extractLsb', load32]
  simp only [BitVec.getLsbD_append, hj, decide_true, Bool.true_and]
  interval_cases i
  · simp [hj]
  · simp [hj, show ¬ (8 + j < 8) by omega, show 8 + j - 8 = j by omega]
  · simp [hj, show ¬ (16 + j < 8) by omega, show 16 + j - 8 = 8 + j by omega]
  · simp [hj, show ¬ (24 + j < 8) by omega, show ¬ (16 + j < 8) by omega,
      show 24 + j - 8 = 16 + j by omega, show 16 + j - 8 = 8 + j by omega]

/-- Memories that agree on a word agree on its bytes. -/
lemma byte_eq_of_load32_eq {m m' : Memory} {a x : BitVec 32} (h : load32 m a = load32 m' a)
    (hx : (x - a).toNat < 4) : m x = m' x := by
  have haddr : x = a + BitVec.ofNat 32 (x - a).toNat := by bv_omega
  rw [haddr, ← extractLsb'_load32 m a hx, ← extractLsb'_load32 m' a hx, h]

/-- Memories that agree on the bytes of a word agree on the word. -/
lemma load32_congr {m m' : Memory} {a : BitVec 32} (h : ∀ x, (x - a).toNat < 4 → m x = m' x) :
    load32 m a = load32 m' a := by
  have hbyte : ∀ i < 4, m (a + BitVec.ofNat 32 i) = m' (a + BitVec.ofNat 32 i) := by
    intro i hi
    apply h
    bv_omega
  rw [load32, load32, hbyte 0 (by omega), hbyte 1 (by omega), hbyte 2 (by omega),
    hbyte 3 (by omega)]

/-- A store to two memories makes no byte different. -/
lemma store32_congr {m m' : Memory} {x : BitVec 32} (a v : BitVec 32) (h : m x = m' x) :
    store32 m a v x = store32 m' a v x := by
  rw [store32, store32, h]

/-- Storing the word that is there changes nothing. -/
@[simp] theorem store32_load32_same (m : Memory) (a : BitVec 32) :
    store32 m a (load32 m a) = m := by
  funext x
  rw [store32]
  split
  · rename_i h
    rw [extractLsb'_load32 m a h]
    congr 1
    bv_omega
  · rfl

/-- The later of two stores to one address wins. -/
@[simp] theorem store32_store32_same (m : Memory) (a v v' : BitVec 32) :
    store32 (store32 m a v) a v' = store32 m a v' := by
  funext x
  simp only [store32]
  split <;> rfl

/-- A store leaves the words apart from it alone. -/
theorem load32_store32_of_apart (m : Memory) {a b : BitVec 32} (v : BitVec 32)
    (h : WordsApart a b) : load32 (store32 m a v) b = load32 m b := by
  obtain ⟨h1, h2⟩ := h
  have hout : ∀ i < 4, store32 m a v (b + BitVec.ofNat 32 i) = m (b + BitVec.ofNat 32 i) := by
    intro i hi
    apply store32_outside
    bv_omega
  rw [load32, load32, hout 0 (by omega), hout 1 (by omega), hout 2 (by omega), hout 3 (by omega)]

/-! ## Runs of bytes -/

/-- The memory after storing consecutive bytes from the address `a` on. -/
def storeBytes (m : Memory) (a : BitVec 32) (bytes : List (BitVec 8)) : Memory := fun x =>
  bytes.getD (x - a).toNat (m x)

/-- The code of a character. -/
def charCode (c : Char) : BitVec 8 := BitVec.ofNat 8 c.toNat

/-- The characters of a text, without the null byte at its end. -/
def messageBytes (text : String) : List (BitVec 8) := text.toList.map charCode

/-- The bytes of a 16-bit value. -/
def bytes16 (v : BitVec 16) : List (BitVec 8) := [v.extractLsb' 0 8, v.extractLsb' 8 8]

/-- Bytes further away than the run is long are not stored to. -/
lemma storeBytes_outside (m : Memory) {a x : BitVec 32} {bytes : List (BitVec 8)}
    (h : bytes.length ≤ (x - a).toNat) : storeBytes m a bytes x = m x := by
  rw [storeBytes, List.getD_eq_getElem?_getD, List.getElem?_eq_none h, Option.getD_none]

/-- The byte at the offset `i` of a record after a store at the offset `j`. -/
lemma storeBytes_offset (m : Memory) (a : BitVec 32) {bytes : List (BitVec 8)} {i j : ℕ}
    (hi : i < 2 ^ 31) (hj : j < 2 ^ 31) (hlength : bytes.length ≤ 2 ^ 31) :
    storeBytes m (a + BitVec.ofNat 32 j) bytes (a + BitVec.ofNat 32 i) =
      if j ≤ i then bytes.getD (i - j) (m (a + BitVec.ofNat 32 i))
      else m (a + BitVec.ofNat 32 i) := by
  split
  · have hdiff : (a + BitVec.ofNat 32 i - (a + BitVec.ofNat 32 j)).toNat = i - j := by bv_omega
    rw [storeBytes, hdiff]
  · refine storeBytes_outside m ?_
    have hdiff : 2 ^ 31 ≤ (a + BitVec.ofNat 32 i - (a + BitVec.ofNat 32 j)).toNat := by bv_omega
    exact hlength.trans hdiff

/-- A 16-bit value is made of its bytes. -/
lemma append_bytes16 (v : BitVec 16) : v.extractLsb' 8 8 ++ v.extractLsb' 0 8 = v := by
  rw [BitVec.extractLsb'_append_extractLsb'_eq_extractLsb' (by rfl)]
  simp

/-! ## Regions -/

/-- Consecutive bytes of memory. -/
structure Region where
  first : BitVec 32
  size : ℕ

namespace Region

/-- The byte belongs to the region. -/
def Has (r : Region) (x : BitVec 32) : Prop := (x - r.first).toNat < r.size

/-- The regions share no byte. -/
def Apart (r q : Region) : Prop :=
  r.size ≤ (q.first - r.first).toNat ∧ q.size ≤ (r.first - q.first).toNat

instance (r q : Region) : Decidable (r.Apart q) := inferInstanceAs (Decidable (_ ∧ _))

lemma Apart.symm {r q : Region} (h : r.Apart q) : q.Apart r := ⟨h.2, h.1⟩

/-- Regions that are apart share no byte. -/
lemma Apart.not_has {r q : Region} (h : r.Apart q) {x : BitVec 32} (hx : q.Has x) : ¬ r.Has x := by
  obtain ⟨hr, hq⟩ := h
  rw [Has] at hx ⊢
  bv_omega

/-- A word of memory. -/
def word (a : BitVec 32) : Region := ⟨a, 4⟩

end Region

/-- Only bytes of the regions differ. -/
def DifferOn (rs : List Region) (m m' : Memory) : Prop :=
  ∀ x, (∀ r ∈ rs, ¬ r.Has x) → m' x = m x

section

variable {rs : List Region} {m m' : Memory}

lemma DifferOn.trans {qs : List Region} {m'' : Memory} (h : DifferOn rs m m')
    (h' : DifferOn qs m' m'') : DifferOn (rs ++ qs) m m'' := by
  intro x hx
  rw [h' x fun r hr => hx r (List.mem_append_right rs hr),
    h x fun r hr => hx r (List.mem_append_left qs hr)]

lemma DifferOn.mono {qs : List Region} (h : DifferOn rs m m') (hsub : rs ⊆ qs) :
    DifferOn qs m m' :=
  fun x hx => h x fun r hr => hx r (hsub hr)

/-- A region apart from those that differ is the same. -/
lemma DifferOn.eq_of_apart (h : DifferOn rs m m') {q : Region} (hq : ∀ r ∈ rs, r.Apart q)
    {x : BitVec 32} (hx : q.Has x) : m' x = m x :=
  h x fun r hr => (hq r hr).not_has hx

end

lemma store32_of_not_has (m : Memory) {a x : BitVec 32} (v : BitVec 32)
    (h : ¬ (Region.word a).Has x) : store32 m a v x = m x :=
  store32_outside m v (Nat.le_of_not_lt h)

lemma load32_store32_of_regions (m : Memory) {a b : BitVec 32} (v : BitVec 32)
    (h : (Region.word a).Apart (Region.word b)) : load32 (store32 m a v) b = load32 m b :=
  load32_store32_of_apart m v h

end VVBright
