import VVBright.Memory.Permissions

/-!
# Address spaces

What a directory means to the processor is the partial function from pages to frames with access
rights that its two-level walk computes (`mmuView`).  What the callers of `map_page` asked for is a
property of the list of calls alone, and needs neither page tables nor a bitmap: the rights of the
first call in the 4 MB of a page are a ceiling for the page, and the last call for the page says the
rest (`requestedView`).

`mmuView_eq_requestedView` says that the tables built by `map_page` represent the requested address
spaces, for any number of directories at once and whatever frames are allocated and freed in
between.  The relation that carries the induction, `SlotMatches`, is about one slot: it has a table
exactly when some call fell into it, the permission bits of its directory word are those of the
first such call, and the entry of a page is the last request for it.
-/

namespace VVBright

open Traced

/-! ## The two views -/

/-- A frame and the rights to access it. -/
structure PageInfo where
  frame : ℕ
  writable : Bool
  user : Bool
  writeThrough : Bool
  cacheDisable : Bool
  deriving DecidableEq

/-- How the processor reads a directory word or a page entry. -/
def PageInfo.decode (word : BitVec 32) : Option PageInfo :=
  if word.getLsbD 0 then
    some ⟨word.toNat / 4096, word.getLsbD 1, word.getLsbD 2, word.getLsbD 3, word.getLsbD 4⟩
  else
    none

/-- A page under a directory word: both levels have to grant an access, the caching is that of the
entry. -/
def PageInfo.under (pde pte : PageInfo) : PageInfo :=
  { pte with writable := pde.writable && pte.writable, user := pde.user && pte.user }

/-- The page of `virt` as the processor sees it. -/
def mmuView (mem : Memory) (dir : PageDirectory) (virt : BitVec 32) : Option PageInfo := do
  let pde ← PageInfo.decode (dir.tablesPhysical (tableIndex virt))
  let pte ← PageInfo.decode (load32 mem (wordAddr (frameAddr pde.frame) (entryIndex virt)))
  return pde.under pte

/-- What a call with these arguments asks for. -/
def PageInfo.ofRequest (phys flags : BitVec 32) : PageInfo :=
  ⟨phys.toNat / 4096, flags.getLsbD 1, flags.getLsbD 2, flags.getLsbD 3, flags.getLsbD 4⟩

/-- What the call asks for if it maps some page in the 4 MB of `v` in the directory `d`. -/
def slotRequest (d : DirPtr) (v : BitVec 32) : Call → Option PageInfo
  | .mapPage d' virt phys flags =>
    if d' = d ∧ tableIndex virt = tableIndex v then some (.ofRequest phys flags) else none
  | _ => none

/-- What the call asks for if it maps the page of `v` in the directory `d`. -/
def pageRequest (d : DirPtr) (v : BitVec 32) : Call → Option PageInfo
  | .mapPage d' virt phys flags =>
    if d' = d ∧ virt.toNat / 4096 = v.toNat / 4096 then some (.ofRequest phys flags) else none
  | _ => none

/-- The first request in the 4 MB of `v`. -/
def firstInSlot (d : DirPtr) (v : BitVec 32) (calls : List Call) : Option PageInfo :=
  calls.findSome? (slotRequest d v)

/-- The last request for the page of `v`. -/
def lastOfPage (d : DirPtr) (v : BitVec 32) (calls : List Call) : Option PageInfo :=
  calls.reverse.findSome? (pageRequest d v)

/-- The page of `v` as the callers asked for it: the last request for it, within the rights of the
first request in its 4 MB. -/
def requestedView (d : DirPtr) (v : BitVec 32) (calls : List Call) : Option PageInfo := do
  let first ← firstInSlot d v calls
  let last ← lastOfPage d v calls
  return first.under last

section

variable (d : DirPtr) (v : BitVec 32) (calls : List Call) (call : Call)

lemma firstInSlot_append : firstInSlot d v (calls ++ [call]) =
    (firstInSlot d v calls).or (slotRequest d v call) := by
  simp [firstInSlot, List.findSome?_append]

lemma lastOfPage_append : lastOfPage d v (calls ++ [call]) =
    (pageRequest d v call).or (lastOfPage d v calls) := by
  rw [lastOfPage, List.reverse_append, List.reverse_singleton, List.findSome?_append,
    List.findSome?_singleton, lastOfPage]

end

/-! ## Words -/

lemma decode_clearedEntry : PageInfo.decode clearedEntry = none := rfl

/-- The entry `map_page` fills says what the call asks for. -/
lemma decode_filledEntry (phys flags entry : BitVec 32) :
    PageInfo.decode (filledEntry phys flags entry) = some (.ofRequest phys flags) := by
  have hpresent := filledEntry_present phys flags entry
  obtain ⟨hrw, huser⟩ := filledEntry_permissions phys flags entry
  have hpwt : (filledEntry phys flags entry).getLsbD 3 = flags.getLsbD 3 := by
    rw [getLsbD_filledEntry phys flags entry (by norm_num)]
    exact getLsbD_flagBit flags (k := 3) (by norm_num)
  have hpcd : (filledEntry phys flags entry).getLsbD 4 = flags.getLsbD 4 := by
    rw [getLsbD_filledEntry phys flags entry (by norm_num)]
    exact getLsbD_flagBit flags (k := 4) (by norm_num)
  rw [PageInfo.decode, if_pos hpresent, filledEntry_frame, hrw, huser, hpwt, hpcd,
    PageInfo.ofRequest]

/-- The entry of the page of `v` in the table that the slot points to. -/
def slotEntry (s : MemoryState) (d : DirPtr) (v : BitVec 32) : BitVec 32 :=
  load32 s.mem (entryAddr (frameOf ((s.dirs d).tables (tableIndex v))) (entryIndex v))

section

variable {D : Set DirPtr} {s t : MemoryState} {d : DirPtr} {virt : BitVec 32} {f k : ℕ}

/-- A change of the bitmap leaves the entries alone. -/
lemma slotEntry_of_bitmapOnly (hs : BitmapReady s) (h : Coherent D s) (hst : BitmapOnly s t)
    (hd : d ∈ D) {v : BitVec 32} (hne : (s.dirs d).tables (tableIndex v) ≠ NULL) :
    slotEntry t d v = slotEntry s d v := by
  obtain ⟨f, hf, -, -, hoff, -, hfof, -, -⟩ := h.exists_frame hd hne
  have hdirs : t.dirs = s.dirs := by rw [hst.rest]
  rw [slotEntry, slotEntry, hdirs, hfof]
  exact hst.off _ (entryAddr_offBitmap hf (entryIndex_lt v) hs hoff)

/-- Filling the entry of `virt` changes the entry of this page and no other. -/
lemma slotEntry_fillState (h : Coherent D s) (hd : d ∈ D)
    (htable : (s.dirs d).tables (tableIndex virt) = frameAddr f) (hf : f < frameCount)
    (hf0 : f ≠ 0) (phys flags : BitVec 32) {d' : DirPtr} (hd' : d' ∈ D) {v : BitVec 32}
    (hne : (s.dirs d').tables (tableIndex v) ≠ NULL) :
    slotEntry (fillState (entryAddr f (entryIndex virt)) phys flags s) d' v =
      if d = d' ∧ virt.toNat / 4096 = v.toNat / 4096 then filledEntry phys flags (slotEntry s d' v)
      else slotEntry s d' v := by
  obtain ⟨f', hf', -, -, -, -, hfof', -, -⟩ := h.exists_frame hd' hne
  have hfof : frameOf ((s.dirs d).tables (tableIndex virt)) = f := by
    rw [htable, frameOf_frameAddr hf]
  rw [slotEntry, slotEntry, dirs_fillState, hfof', mem_fillState]
  by_cases hpage : d = d' ∧ virt.toNat / 4096 = v.toNat / 4096
  · obtain ⟨rfl, hpage⟩ := hpage
    obtain ⟨hslot, hentry⟩ := index_of_samePage hpage
    have hff : f' = f := by rw [← hfof', ← hslot, hfof]
    rw [if_pos ⟨rfl, hpage⟩, hff, ← hentry, load32_store32_same]
  · -- another page has another entry, or its table is another frame
    have hapart : f ≠ f' ∨ entryIndex virt ≠ entryIndex v := by
      by_contra hcon
      rw [not_or, not_not, not_not] at hcon
      obtain ⟨hff, hentry⟩ := hcon
      have htable' : (s.dirs d).tables (tableIndex virt) ≠ NULL := by
        rw [htable]
        exact frameAddr_ne_null hf hf0
      obtain ⟨rfl, hslot⟩ := h.distinct d hd (tableIndex virt) d' hd' (tableIndex v) htable' hne
        (by rw [hfof, hfof', hff])
      exact hpage ⟨rfl, samePage_of_index hslot hentry⟩
    rw [if_neg hpage, load32_store32_of_apart _ _
      (entryAddr_apart hf (entryIndex_lt virt) hf' (entryIndex_lt v) hapart)]

/-- The entries of a new table are cleared, those of other tables stay. -/
lemma slotEntry_newTableState (h : Coherent D s) (hk : FreshFrame D s k) (i : Fin 1024)
    (flags : BitVec 32) {d' : DirPtr} (hd' : d' ∈ D) {v : BitVec 32}
    (hne : ¬ (d' = d ∧ tableIndex v = i) → (s.dirs d').tables (tableIndex v) ≠ NULL) :
    slotEntry (newTableState d i (frameAddr k) flags s) d' v =
      if d' = d ∧ tableIndex v = i then clearedEntry else slotEntry s d' v := by
  rw [slotEntry, tables_newTableState, mem_newTableState]
  split
  · rw [frameOf_frameAddr hk.lt]
    exact load32_clearTableMem _ _ le_rfl (entryIndex_lt v)
  · rename_i hslot
    obtain ⟨f, hf, -, -, -, -, hfof, -, -⟩ := h.exists_frame hd' (hne hslot)
    have hkf : k ≠ f := by
      rw [← hfof]
      exact (hk.unused d' hd' _ (hne hslot)).symm
    rw [slotEntry, hfof,
      load32_clearTableMem_of_off _ (entryAddr_offTable hf (entryIndex_lt v) hk.lt hkf) le_rfl]

/-- The entries after a call of `map_page`: that of its own page is the request, the others of a new
table are not present, and every other entry stays. -/
lemma decode_slotEntry_mapPage (hs : BitmapReady s) (h : Coherent D s) (hd : d ∈ D)
    {phys flags : BitVec 32} (htakes : (s.dirs d).tables (tableIndex virt) = NULL → TakesFrame s)
    (ht : t = (mapPage d virt phys flags).exec s) {d' : DirPtr} (hd' : d' ∈ D) {v : BitVec 32}
    (hne : (t.dirs d').tables (tableIndex v) ≠ NULL) (hflags : flags.toNat < 0x80) :
    PageInfo.decode (slotEntry t d' v) =
      if d = d' ∧ virt.toNat / 4096 = v.toNat / 4096 then some (.ofRequest phys flags)
      else if (s.dirs d').tables (tableIndex v) = NULL then none
      else PageInfo.decode (slotEntry s d' v) := by
  by_cases hnull : (s.dirs d).tables (tableIndex virt) = NULL
  · obtain ⟨k, -, heval, -, -, hcoh, hfresh⟩ := allocFrame_fresh hs h (htakes hnull)
    have hready := (allocFrame_bitmapOnly hs).ready hs
    set u := newTableState d (tableIndex virt) (frameAddr k) flags (allocFrame.exec s) with hu
    have hucoh : Coherent D u := hcoh.newTableState hready hfresh hflags
    have htable : (u.dirs d).tables (tableIndex virt) = frameAddr k := by
      rw [hu, tables_newTableState, if_pos ⟨rfl, rfl⟩]
    rw [exec_mapPage_of_null phys flags hnull, heval, ← hu, ← entryAddr] at ht
    rw [ht, dirs_fillState] at hne
    rw [ht, slotEntry_fillState hucoh hd htable hfresh.lt hfresh.ne_zero phys flags hd' hne]
    split
    · exact decode_filledEntry _ _ _
    · rw [hu, tables_newTableState] at hne
      have hold : ¬ (d' = d ∧ tableIndex v = tableIndex virt) →
          (s.dirs d').tables (tableIndex v) ≠ NULL := by
        intro hslot
        rw [if_neg hslot, dirs_allocFrame] at hne
        exact hne
      rw [hu, slotEntry_newTableState hcoh hfresh _ _ hd'
        (fun hslot => by rw [dirs_allocFrame]; exact hold hslot)]
      by_cases hslot : d' = d ∧ tableIndex v = tableIndex virt
      · rw [if_pos hslot, hslot.1, hslot.2, if_pos hnull, decode_clearedEntry]
      · rw [if_neg hslot, if_neg (hold hslot),
          slotEntry_of_bitmapOnly hs h (allocFrame_bitmapOnly hs) hd' (hold hslot)]
  · obtain ⟨f, hf, hf0, -, -, htable, -, -, -⟩ := h.exists_frame hd hnull
    rw [exec_mapPage_of_table phys flags htable (by rwa [← htable]), ← entryAddr] at ht
    rw [ht, dirs_fillState] at hne
    rw [ht, slotEntry_fillState h hd htable hf hf0 phys flags hd' hne, if_neg hne]
    split
    · exact decode_filledEntry _ _ _
    · rfl

end

/-! ## The relation between calls and tables -/

/-- The slot of `v` represents what the calls asked for. -/
structure SlotMatches (calls : List Call) (s : MemoryState) (d : DirPtr) (v : BitVec 32) :
    Prop where
  /-- Without a request in its 4 MB the slot is empty. -/
  empty : firstInSlot d v calls = none → (s.dirs d).tables (tableIndex v) = NULL
  /-- After a request there is a table. -/
  table : ∀ first, firstInSlot d v calls = some first → (s.dirs d).tables (tableIndex v) ≠ NULL
  /-- The directory word has the permissions of the first request. -/
  word : ∀ first, firstInSlot d v calls = some first →
    ((s.dirs d).tablesPhysical (tableIndex v)).getLsbD 1 = first.writable ∧
      ((s.dirs d).tablesPhysical (tableIndex v)).getLsbD 2 = first.user
  /-- The entry is the last request. -/
  entry : ∀ first, firstInSlot d v calls = some first →
    PageInfo.decode (slotEntry s d v) = lastOfPage d v calls

section

variable {D : Set DirPtr} {calls : List Call} {c : Client} {d : DirPtr} {v : BitVec 32}

/-- A call that maps nothing changes neither the requests nor the tables. -/
lemma SlotMatches.of_bitmapOnly {call : Call} {t : MemoryState} (h : SlotMatches calls c.st d v)
    (hinv : TransInv D c) (hd : d ∈ D) (hslot : slotRequest d v call = none)
    (hpage : pageRequest d v call = none) (hst : BitmapOnly c.st t) :
    SlotMatches (calls ++ [call]) t d v := by
  have hfirst : firstInSlot d v (calls ++ [call]) = firstInSlot d v calls := by
    rw [firstInSlot_append, hslot, Option.or_none]
  have hlast : lastOfPage d v (calls ++ [call]) = lastOfPage d v calls := by
    rw [lastOfPage_append, hpage, Option.none_or]
  have hdirs : t.dirs = c.st.dirs := by rw [hst.rest]
  refine ⟨?_, ?_, ?_, ?_⟩ <;> rw [hfirst]
  · rw [hdirs]
    exact h.empty
  · rw [hdirs]
    exact h.table
  · rw [hdirs]
    exact h.word
  · intro first hsome
    rw [hlast, slotEntry_of_bitmapOnly hinv.ready hinv.coherent hst hd (h.table first hsome)]
    exact h.entry first hsome

/-- A page that is requested lies in a slot that is requested. -/
lemma pageRequest_eq_none {call : Call} (h : slotRequest d v call = none) :
    pageRequest d v call = none := by
  cases call with
  | mapPage d' virt phys flags =>
    rw [slotRequest, ite_eq_right_iff] at h
    rw [pageRequest, if_neg]
    rintro ⟨hd', hpage⟩
    exact absurd (h ⟨hd', (index_of_samePage hpage).1⟩) (Option.some_ne_none _)
  | _ => rfl

/-- Nothing was requested for a page whose slot saw no request. -/
lemma lastOfPage_eq_none (h : firstInSlot d v calls = none) : lastOfPage d v calls = none := by
  rw [firstInSlot, List.findSome?_eq_none_iff] at h
  rw [lastOfPage, List.findSome?_eq_none_iff]
  exact fun call hcall => pageRequest_eq_none (h call (List.mem_reverse.mp hcall))

/-- `map_page` records its request. -/
lemma SlotMatches.mapPage {d' : DirPtr} {virt phys flags : BitVec 32}
    (h : SlotMatches calls c.st d v) (hinv : TransInv D c) (hd : d ∈ D)
    (hcall : TransCall D (.mapPage d' virt phys flags) c) :
    SlotMatches (calls ++ [.mapPage d' virt phys flags])
      ((VVBright.mapPage d' virt phys flags).exec c.st) d v := by
  obtain ⟨hd', hflags, htakes⟩ := hcall
  obtain ⟨t, ht⟩ : ∃ t, t = (VVBright.mapPage d' virt phys flags).exec c.st := ⟨_, rfl⟩
  have hentry := fun hne =>
    decode_slotEntry_mapPage hinv.ready hinv.coherent hd' htakes ht hd (v := v) hne hflags
  have htables : (t.dirs d).tables (tableIndex v) =
      if (c.st.dirs d').tables (tableIndex virt) = NULL ∧ d = d' ∧ tableIndex v = tableIndex virt
      then allocFrame.eval c.st else (c.st.dirs d).tables (tableIndex v) := by
    rw [ht]
    exact tables_mapPage phys flags d (tableIndex v)
  have hwords : (t.dirs d).tablesPhysical (tableIndex v) =
      if (c.st.dirs d').tables (tableIndex virt) = NULL ∧ d = d' ∧ tableIndex v = tableIndex virt
      then allocFrame.eval c.st ||| flags ||| 0x01#32
      else (c.st.dirs d).tablesPhysical (tableIndex v) := by
    rw [ht]
    exact tablesPhysical_mapPage phys flags d (tableIndex v)
  rw [← ht]
  have hlast := lastOfPage_append d v calls (.mapPage d' virt phys flags)
  have hfirst := firstInSlot_append d v calls (.mapPage d' virt phys flags)
  rw [pageRequest] at hlast
  rw [slotRequest] at hfirst
  cases hold : firstInSlot d v calls with
  | some first =>
    -- the slot has a table already, which the call can only write an entry of
    have hne := h.table first hold
    have hsame : ¬ ((c.st.dirs d').tables (tableIndex virt) = NULL ∧ d = d' ∧
        tableIndex v = tableIndex virt) := by
      rintro ⟨hnull, rfl, hslot⟩
      exact hne (by rw [hslot]; exact hnull)
    rw [if_neg hsame] at htables hwords
    rw [hold, Option.some_or] at hfirst
    refine ⟨?_, ?_, ?_, ?_⟩ <;> rw [hfirst]
    · exact fun hnone => absurd hnone (Option.some_ne_none _)
    · rw [htables]
      exact fun _ _ => hne
    · rintro first' heq
      rw [hwords]
      exact h.word first' (hold.trans heq)
    · rintro first' heq
      rw [hentry (by rw [htables]; exact hne), if_neg hne, hlast, h.entry first hold]
      split <;> rfl
  | none =>
    have hnull := h.empty hold
    rw [hold, Option.none_or] at hfirst
    rw [lastOfPage_eq_none hold, Option.or_none] at hlast
    by_cases hslot : d' = d ∧ tableIndex virt = tableIndex v
    · -- the call creates the table of the slot
      obtain ⟨rfl, hslot⟩ := hslot
      rw [hslot] at htables hwords
      rw [if_pos ⟨hnull, rfl, rfl⟩] at htables hwords
      rw [if_pos ⟨rfl, hslot⟩] at hfirst
      obtain ⟨k, -, heval, -, -, -, hfresh⟩ := allocFrame_fresh hinv.ready hinv.coherent
        (htakes (by rw [hslot]; exact hnull))
      have hne : (t.dirs d').tables (tableIndex v) ≠ NULL := by
        rw [htables, heval]
        exact frameAddr_ne_null hfresh.lt hfresh.ne_zero
      have haligned := allocFrame_aligned c.st
      refine ⟨?_, fun _ _ => hne, ?_, ?_⟩ <;> rw [hfirst]
      · exact fun hnone => absurd hnone (Option.some_ne_none _)
      · rintro first ⟨⟩
        rw [hwords, getLsbD_directoryWord haligned (by norm_num) (by norm_num),
          getLsbD_directoryWord haligned (by norm_num) (by norm_num)]
        exact ⟨rfl, rfl⟩
      · rintro first -
        rw [hentry hne, if_pos hnull, hlast]
    · have hsame : ¬ ((c.st.dirs d').tables (tableIndex virt) = NULL ∧ d = d' ∧
          tableIndex v = tableIndex virt) := fun hcon => hslot ⟨hcon.2.1.symm, hcon.2.2.symm⟩
      rw [if_neg hsame] at htables
      rw [if_neg hslot] at hfirst
      refine ⟨?_, ?_, ?_, ?_⟩ <;> rw [hfirst]
      · rw [htables]
        exact fun _ => hnull
      all_goals exact fun _ hsome => absurd hsome.symm (Option.some_ne_none _)

/-- Empty slots represent no requests. -/
lemma slotMatches_empty {s : MemoryState} (hempty : ∀ i, (s.dirs d).tables i = NULL) :
    SlotMatches [] s d v :=
  ⟨fun _ => hempty _, fun _ h => absurd h.symm (Option.some_ne_none _),
    fun _ h => absurd h.symm (Option.some_ne_none _),
    fun _ h => absurd h.symm (Option.some_ne_none _)⟩

/-- Every permitted call keeps the relation. -/
lemma SlotMatches.step {call : Call} (h : SlotMatches calls c.st d v) (hinv : TransInv D c)
    (hd : d ∈ D) (hcall : TransCall D call c) :
    SlotMatches (calls ++ [call]) (Client.step call c).st d v := by
  cases call with
  | allocFrame =>
    rw [Client.step_allocFrame hcall.1]
    exact h.of_bitmapOnly hinv hd rfl rfl (allocFrame_bitmapOnly hinv.ready)
  | freeFrame p =>
    exact h.of_bitmapOnly hinv hd rfl rfl (freeFrame_bitmapOnly c.st (hinv.toNat_lt hcall))
  | mapPage d' virt phys flags => exact h.mapPage hinv hd hcall
  | kmalloc _ => exact hcall.elim
  | kfree _ => exact hcall.elim

/-- The relation gives equal views. -/
lemma SlotMatches.mmuView_eq (h : SlotMatches calls c.st d v) (hinv : TransInv D c) (hd : d ∈ D) :
    mmuView c.st.mem (c.st.dirs d) v = requestedView d v calls := by
  rw [mmuView, requestedView]
  cases hfirst : firstInSlot d v calls with
  | none =>
    have habsent := hinv.coherent.absent hd (h.empty hfirst)
    rw [PageInfo.decode, habsent]
    rfl
  | some first =>
    obtain ⟨f, -, -, -, -, -, hfof, hpresent, hframe⟩ :=
      hinv.coherent.exists_frame hd (h.table first hfirst)
    obtain ⟨hrw, huser⟩ := h.word first hfirst
    have hentry := h.entry first hfirst
    rw [slotEntry, hfof, entryAddr] at hentry
    rw [PageInfo.decode, if_pos hpresent, Option.bind_eq_bind, Option.bind_some, hframe, hentry,
      hrw, huser]
    rfl

end

/-- **The page tables represent the requested address spaces.**  Let the directories in `D` start
out empty and frame 0 be marked, and let `map_page` calls on them with flags below `0x80`,
allocations, and frees of held frames follow in any order, where every frame that is asked for is
found and is off the bitmap.  Then every page of every directory in `D` is seen by the processor as
the last call for it asked, with no more rights than the first call in its 4 MB asked for, and is
not present if no call asked for it. -/
theorem mmuView_eq_requestedView (D : Set DirPtr) (s : MemoryState) (hs : BitmapReady s)
    (hcoh : Coherent D s) (hempty : ∀ d ∈ D, ∀ i, (s.dirs d).tables i = NULL) (calls : List Call)
    (hrun : Along Client.step (TransCall D) calls (Client.start s)) {d : DirPtr} (hd : d ∈ D)
    (v : BitVec 32) :
    let c := runActions Client.step calls (Client.start s)
    mmuView c.st.mem (c.st.dirs d) v = requestedView d v calls := by
  have hstart : TransInv D (Client.start s) :=
    ⟨hs, hcoh, by simp [Client.start], by simp [Client.start], by simp [Client.start]⟩
  have hstep : ∀ call c, TransInv D c → TransCall D call c → TransInv D (Client.step call c) :=
    fun call c h hcall => h.step hcall
  have hmatches : SlotMatches calls (runActions Client.step calls (Client.start s)).st d v := by
    induction calls using List.reverseRecOn with
    | nil => exact slotMatches_empty (hempty d hd)
    | append_singleton calls call ih =>
      obtain ⟨hcalls, hcall, -⟩ := along_append.mp hrun
      rw [runActions_append]
      exact (ih hcalls).step (hcalls.invariant hstart hstep) hd hcall
  exact hmatches.mmuView_eq (hrun.invariant hstart hstep) hd

/-- A state with empty directories and only frame 0 taken: the next call of `map_page` gets frame
1. -/
lemma exists_emptyDirectories : ∃ s, s = allocFrame.exec emptyBitmap ∧ BitmapReady s ∧
    Coherent Set.univ s ∧ (∀ d i, (s.dirs d).tables i = NULL) ∧ TakesFrame s ∧
      allocFrame.eval s = frameAddr 1 := by
  obtain ⟨s, hs⟩ : ∃ s, s = allocFrame.exec emptyBitmap := ⟨_, rfl⟩
  obtain ⟨hready, hmarked, hcoh⟩ := coherent_allocFrame_emptyBitmap
  have hempty : ∀ d i, ((allocFrame.exec emptyBitmap).dirs d).tables i = NULL := by
    rw [dirs_allocFrame]
    exact fun _ _ => rfl
  rw [← hs] at hready hmarked hcoh hempty
  obtain ⟨-, heval, -, -⟩ := step_allocFrame_range (c := Client.start s) hready hmarked
    (by norm_num [frameCount])
  exact ⟨s, hs, hready, hcoh, hempty, takesFrame_of_range hready hmarked (by norm_num), heval⟩

/-- Once a page is mapped, its 4 MB have a table. -/
lemma tables_ne_null_of_mapPage {s : MemoryState} {k : ℕ} (heval : allocFrame.eval s = frameAddr k)
    (hk : k < frameCount) (hk0 : k ≠ 0) {d : DirPtr} {virt : BitVec 32}
    (hnull : (s.dirs d).tables (tableIndex virt) = NULL) (phys flags : BitVec 32) {v : BitVec 32}
    (hv : tableIndex v = tableIndex virt) :
    (((mapPage d virt phys flags).exec s).dirs d).tables (tableIndex v) ≠ NULL := by
  rw [tables_mapPage, if_pos ⟨hnull, rfl, hv⟩, heval]
  exact frameAddr_ne_null hk hk0

/-- A user page mapped after a kernel page in the same 4 MB is writable but not accessible from user
mode. -/
theorem mmuView_eq_requestedView_user_page :
    let c := runActions Client.step
      [.mapPage kernelDirectory 0x400000#32 0x5000#32 0x03#32,
        .mapPage kernelDirectory 0x401000#32 0x6000#32 0x07#32]
      (Client.start (allocFrame.exec emptyBitmap))
    mmuView c.st.mem (c.st.dirs kernelDirectory) 0x401123#32 =
      some ⟨6, true, false, false, false⟩ := by
  obtain ⟨s, hs, hready, hcoh, hempty, htakes, heval⟩ := exists_emptyDirectories
  rw [← hs]
  have htable := tables_ne_null_of_mapPage heval (by norm_num [frameCount]) (by norm_num)
    (hempty kernelDirectory (tableIndex 0x400000#32)) 0x5000#32 0x03#32 (v := 0x401000#32)
    (by decide)
  have hrun : Along Client.step (TransCall Set.univ)
      [.mapPage kernelDirectory 0x400000#32 0x5000#32 0x03#32,
        .mapPage kernelDirectory 0x401000#32 0x6000#32 0x07#32] (Client.start s) :=
    ⟨⟨Set.mem_univ _, by norm_num, fun _ => htakes⟩,
      ⟨Set.mem_univ _, by norm_num, fun hnull => absurd hnull htable⟩, trivial⟩
  exact mmuView_eq_requestedView Set.univ _ hready hcoh (fun d _ => hempty d) _ hrun
    (Set.mem_univ kernelDirectory) 0x401123#32

end VVBright
