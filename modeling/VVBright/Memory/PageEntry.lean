import VVBright.Memory.Paging

/-!
# Page entries as records

To the C code a `page_entry_t` is a record of eleven members; to the processor it is a word of
32 bits.  `PageEntry` is the record, `PageEntry.ofWord` reads it from a word and `PageEntry.toWord`
packs it.  The members tile the word, so the two are inverse to each other, and an assignment to a
bit field of the word is the assignment to the member of the record (`ofWord_set`).  From this
`map_page` is read as an operation on records, whatever the state it is called in: six members are
assigned, and the other five are those of the entry that was there before.
-/

namespace VVBright

open Traced

/-- A `page_entry_t`: a value for every member. -/
def PageEntry : Type := (f : PageField) → BitVec f.width

namespace PageEntry

/-- The record in a word. -/
def ofWord (w : BitVec 32) : PageEntry := fun f => w.extractLsb' f.lo f.width

/-- `r.f = v`: the member takes the low bits of the value. -/
def assign (r : PageEntry) (p : PageField × BitVec 32) : PageEntry :=
  Function.update r p.1 (p.2.setWidth p.1.width)

/-- The members in the order of the declaration. -/
def members : List PageField :=
  [.present, .rw, .user, .pwt, .pcd, .accessed, .dirty, .pat, .global, .avail, .frame]

/-- The word of a record. -/
def toWord (r : PageEntry) : BitVec 32 :=
  applyAssignments (members.map fun f => (f, (r f).setWidth 32)) 0#32

/-- The record of an entry that `map_page` clears: everything is 0, except that it is writable. -/
def cleared : PageEntry := fun f => if f = .rw then 1#f.width else 0#f.width

/-- The record of an entry mapped to the page of `phys`. -/
def mapped (phys flags : BitVec 32) (r : PageEntry) : PageEntry
  | .frame => phys.extractLsb' 12 20
  | .present => 1#1
  | .rw => BitVec.ofBool (flags.getLsbD 1)
  | .user => BitVec.ofBool (flags.getLsbD 2)
  | .pwt => BitVec.ofBool (flags.getLsbD 3)
  | .pcd => BitVec.ofBool (flags.getLsbD 4)
  | f => r f

end PageEntry

/-! ## The members tile the word -/

lemma PageField.lo_add_width_le (f : PageField) : f.lo + f.width ≤ 32 := by
  cases f <;> decide

/-- Different members share no bit. -/
lemma PageField.apart {f g : PageField} (h : f ≠ g) :
    f.lo + f.width ≤ g.lo ∨ g.lo + g.width ≤ f.lo := by
  revert h
  cases f <;> cases g <;> decide

/-- Every bit belongs to a member. -/
lemma PageField.exists_mem {i : ℕ} (hi : i < 32) :
    ∃ f : PageField, f.lo ≤ i ∧ i < f.lo + f.width := by
  have hcover : ∀ i : Fin 32, ∃ f ∈ PageEntry.members, f.lo ≤ i.val ∧ i.val < f.lo + f.width := by
    decide
  obtain ⟨f, -, hf⟩ := hcover ⟨i, hi⟩
  exact ⟨f, hf⟩

lemma PageField.mem_members (f : PageField) : f ∈ PageEntry.members := by
  cases f <;> decide

namespace PageEntry

lemma assign_self (r : PageEntry) (f : PageField) (v : BitVec 32) :
    r.assign (f, v) f = v.setWidth f.width := Function.update_self ..

lemma assign_of_ne (r : PageEntry) {f g : PageField} (h : g ≠ f) (v : BitVec 32) :
    r.assign (f, v) g = r g := Function.update_of_ne h ..

/-- The bits of a member are bits of the word. -/
lemma getLsbD_ofWord (w : BitVec 32) {f : PageField} {i : ℕ} (hi : i < f.width) :
    (ofWord w f).getLsbD i = w.getLsbD (f.lo + i) := by
  rw [ofWord, BitVec.getLsbD_extractLsb', decide_eq_true hi, Bool.true_and]

/-- The members determine the word. -/
lemma ofWord_injective : Function.Injective ofWord := by
  intro v w h
  apply BitVec.eq_of_getLsbD_eq
  intro i hi
  obtain ⟨f, hlo, hhi⟩ := PageField.exists_mem hi
  have hbit := congrArg (fun r : PageEntry => (r f).getLsbD (i - f.lo)) h
  simpa [getLsbD_ofWord _ (show i - f.lo < f.width by omega), Nat.add_sub_cancel' hlo] using hbit

/-- An assignment to a bit field of the word is an assignment to the member of the record. -/
theorem ofWord_set (f : PageField) (v w : BitVec 32) :
    ofWord (f.set v w) = (ofWord w).assign (f, v) := by
  funext g
  apply BitVec.eq_of_getLsbD_eq
  intro i hi
  have hg := g.lo_add_width_le
  rw [getLsbD_ofWord _ hi, getLsbD_set _ _ _ (show g.lo + i < 32 by omega)]
  by_cases hgf : g = f
  · subst hgf
    rw [if_pos (by omega), assign_self, Nat.add_sub_cancel_left, BitVec.getLsbD_setWidth,
      decide_eq_true hi, Bool.true_and]
  · have hapart := PageField.apart hgf
    rw [if_neg (by omega), assign_of_ne _ hgf, getLsbD_ofWord _ hi]

/-- A sequence of assignments to bit fields is the same sequence of assignments to members. -/
theorem ofWord_applyAssignments (fs : List (PageField × BitVec 32)) (w : BitVec 32) :
    ofWord (applyAssignments fs w) = fs.foldl assign (ofWord w) := by
  induction fs generalizing w with
  | nil => rfl
  | cons p fs ih =>
    obtain ⟨f, v⟩ := p
    rw [List.foldl_cons, ← ofWord_set, ← ih]
    rfl

/-- The members assigned from `r` are those of `r`; the others are kept. -/
lemma foldl_assign_apply (r : PageEntry) (fs : List PageField) (q : PageEntry) (f : PageField) :
    (fs.map fun g => (g, (r g).setWidth 32)).foldl assign q f = if f ∈ fs then r f else q f := by
  induction fs generalizing q with
  | nil => rfl
  | cons g fs ih =>
    rw [List.map_cons, List.foldl_cons, ih]
    by_cases hmem : f ∈ fs
    · rw [if_pos hmem, if_pos (List.mem_cons_of_mem g hmem)]
    · rw [if_neg hmem]
      by_cases hfg : f = g
      · subst hfg
        have hwidth := f.lo_add_width_le
        rw [assign_self, if_pos List.mem_cons_self, BitVec.setWidth_setWidth_of_le _ (by omega),
          BitVec.setWidth_eq]
      · rw [assign_of_ne _ hfg, if_neg (by simp [hfg, hmem])]

/-- A record read back from its word. -/
theorem ofWord_toWord (r : PageEntry) : ofWord r.toWord = r := by
  rw [toWord, ofWord_applyAssignments]
  funext f
  rw [foldl_assign_apply, if_pos f.mem_members]

/-- A word packed again from its record. -/
theorem toWord_ofWord (w : BitVec 32) : (ofWord w).toWord = w :=
  ofWord_injective (ofWord_toWord _)

/-! ## The two sequences of assignments of `map_page` -/

lemma toWord_cleared : cleared.toWord = clearedEntry := by decide

/-- The test `flags & bit` reads one bit of the flags. -/
lemma setWidth_flagBit (flags : BitVec 32) {k : ℕ} (hk : k < 32) :
    (flagBit flags (1#32 <<< k)).setWidth 1 = BitVec.ofBool (flags.getLsbD k) := by
  rw [flagBit]
  cases hbit : flags.getLsbD k with
  | false =>
    rw [if_neg (not_not.mpr ((and_one_shiftLeft_eq_zero_iff flags hk).mpr hbit))]
    rfl
  | true =>
    have hne : flags &&& 1#32 <<< k ≠ 0#32 := by
      rw [ne_eq, and_one_shiftLeft_eq_zero_iff flags hk, hbit]
      exact Bool.noConfusion
    rw [if_pos hne]
    rfl

/-- The assignments that map an entry, as an operation on its record. -/
theorem ofWord_filledEntry (phys flags w : BitVec 32) :
    ofWord (filledEntry phys flags w) = mapped phys flags (ofWord w) := by
  have hframe : (BitVec.ofNat 32 (phys.toNat / pageSize)).setWidth 20 = phys.extractLsb' 12 20 := by
    apply BitVec.eq_of_toNat_eq
    have hphys := phys.isLt
    rw [BitVec.toNat_setWidth, BitVec.toNat_ofNat, BitVec.extractLsb'_toNat,
      Nat.shiftRight_eq_div_pow, pageSize]
    omega
  rw [filledEntry, ofWord_applyAssignments]
  funext f
  cases f with
  | frame => exact hframe
  | present => rfl
  | rw => exact setWidth_flagBit flags (k := 1) (by norm_num)
  | user => exact setWidth_flagBit flags (k := 2) (by norm_num)
  | pwt => exact setWidth_flagBit flags (k := 3) (by norm_num)
  | pcd => exact setWidth_flagBit flags (k := 4) (by norm_num)
  | accessed => rfl
  | dirty => rfl
  | pat => rfl
  | global => rfl
  | avail => rfl

end PageEntry

/-! ## `map_page` -/

/-- The address of the entry for a virtual address, in the table the directory points to. -/
def pageEntryAddr (d : DirPtr) (virt : BitVec 32) (s : MemoryState) : BitVec 32 :=
  wordAddr ((s.dirs d).tables (tableIndex virt)) (entryIndex virt)

/-- The record `map_page` finds: that in memory, or a cleared one if it has to make the table. -/
def entryBefore (d : DirPtr) (virt : BitVec 32) (s : MemoryState) : PageEntry :=
  if (s.dirs d).tables (tableIndex virt) = NULL then PageEntry.cleared
  else PageEntry.ofWord (load32 s.mem (pageEntryAddr d virt s))

end VVBright
