import VVBright.Memory.Mmu
import VVBright.Video.Overhang

/-!
# The desktop under paging

`kernel_main` draws through the pointer `fb`, which is `0xE0000000`.  `memory_init` maps the first
4 MB and turns paging on, so from then on a store to the framebuffer faults until somebody has
mapped its page; and it ends in the framebuffer only if the page was mapped to itself.

What the processor does with an address above 4 MB is decided by the calls of `map_page`
(`Represents.view_eq`), and `kernel_main` stores to every pixel of the screen and to nothing else
(`kernelMain_stores_iff`).  Together they say which mapping the desktop needs.
-/

namespace VVBright

open Traced

/-- The initial value of `fb`. -/
def fbPointer : BitVec 32 := 0xE0000000#32

/-- The address of `fb[index]`. -/
def pixelAddr (index : BitVec 32) : BitVec 32 := fbPointer + 4#32 * index

/-- The address is one of a byte of a pixel. -/
def InPixels (f : FbState) (v : BitVec 32) : Prop :=
  fbPointer.toNat ≤ v.toNat ∧
    v.toNat < fbPointer.toNat + 4 * (f.fbWidth.toNat * f.fbHeight.toNat)

/-- The page of `v` is present, and is one that satisfies `Q`. -/
def PageWith (view : BitVec 32 → Option PageInfo) (Q : ℕ → PageInfo → Prop) (v : BitVec 32) :
    Prop :=
  ∃ info, view v = some info ∧ Q (pageOf v) info

/-- What the processor asks of a page before the kernel may store to it: with CR0.WP set, the page
has to be writable. -/
def AllowsStore (cr0 : BitVec 32) (_page : ℕ) (info : PageInfo) : Prop :=
  cr0.getLsbD 16 = true → info.writable = true

/-- The store is allowed and ends at the address it is made to. -/
def StoresInPlace (cr0 : BitVec 32) (page : ℕ) (info : PageInfo) : Prop :=
  AllowsStore cr0 page info ∧ info.frame = page

/-- Every store of `kernel_main` is to a page that satisfies `Q`, as the page tables of `t` say. -/
def KernelMainStores (t : MemoryState) (Q : BitVec 32 → ℕ → PageInfo → Prop) (f : FbState) : Prop :=
  AccessesIn (fun _ index => PageWith t.view (Q t.cr0) (pixelAddr index)) kernelMain f

/-! ## Addresses above 4 MB -/

/-- In a run after `memory_init` an address above 4 MB is seen as the calls of the run asked for. -/
lemma view_above (s : MemoryState) (haligned : DirAligned s kernelDirectory) {calls : List Call}
    (hrun : Along Client.step (RunningCall {kernelDirectory}) calls
      (Client.start (memoryInit.exec s))) {v : BitVec 32} (hv : 0x400000 ≤ v.toNat) :
    (runActions Client.step calls (Client.start (memoryInit.exec s))).st.view v =
      requestedView kernelDirectory v calls := by
  have hboot : BootDirectories {kernelDirectory} s :=
    ⟨rfl, by rintro d rfl; exact haligned, fun d hd hne => absurd hd hne⟩
  have hstart := represents_memoryInit hboot
  generalize memoryInit.exec s = t at hstart hrun ⊢
  have hrepresents : Represents {kernelDirectory} (bootRequests ++ calls) kernelDirectory
      (runActions Client.step calls (Client.start t)) := by
    induction calls using List.reverseRecOn with
    | nil =>
      rw [List.append_nil]
      exact hstart
    | append_singleton calls call ih =>
      obtain ⟨hcalls, hcall, -⟩ := along_append.mp hrun
      rw [runActions_append, ← List.append_assoc]
      exact (ih hcalls).call hcall.1
  rw [hrepresents.view_eq, requestedView_bootRequests hv]

/-! ## The stores of `kernel_main` -/

section

variable {f : FbState} (hwidth : f.fbWidth.toNat < 2 ^ 16) (hheight : f.fbHeight.toNat < 2 ^ 16)
  (hcolumns : 15 ≤ f.fbWidth.toNat) (hrows : 40 ≤ f.fbHeight.toNat)

include hwidth hheight hcolumns hrows

/-- On a screen that is large enough `kernel_main` stores to every pixel, for the background, and to
nothing else. -/
lemma kernelMain_stores_iff (P : BitVec 32 → Prop) :
    AccessesIn (fun _ index => P index) kernelMain f ↔
      ∀ index, InFramebuffer f index → P index := by
  have hP : OfSize fun _ index => P index := fun _ _ _ _ => Iff.rfl
  rw [kernelMain_accessesIn_iff hP]
  simp only [drawRect_accessesIn_iff hP]
  constructor
  · rintro ⟨hback, -, -⟩ index hindex
    have hs := addressable_of_small hwidth hheight
    obtain ⟨honScreen, -⟩ := background_taskbar_onScreen hs hrows
    have hx : index.toNat % f.fbWidth.toNat < f.fbWidth.toNat := Nat.mod_lt _ (by omega)
    have hy : index.toNat / f.fbWidth.toNat < f.fbHeight.toNat :=
      Nat.div_lt_of_lt_mul hindex
    -- the background passes the row and the column of the pixel
    obtain ⟨i, hi, j, hj, hround⟩ := (honScreen.round_iff hs hx hy).mpr
      ((honScreen.contains_iff _ _).mpr
        ⟨⟨Nat.zero_le _, by simpa using hx⟩, Nat.zero_le _, by simpa using hy⟩)
    rw [Nat.div_add_mod', BitVec.ofNat_toNat, BitVec.setWidth_eq] at hround
    rw [hround]
    exact hback i hi j hj
  · intro hall
    have hinside := kernelMain_accessesIn hwidth hheight hcolumns hrows
    rw [kernelMain_accessesIn_iff inFramebuffer_ofSize] at hinside
    simp only [drawRect_accessesIn_iff inFramebuffer_ofSize] at hinside
    obtain ⟨hback, hbar, hbutton⟩ := hinside
    exact ⟨fun i hi j hj => hall _ (hback i hi j hj), fun i hi j hj => hall _ (hbar i hi j hj),
      fun i hi j hj => hall _ (hbutton i hi j hj)⟩

end

/-- The address of a pixel, for a framebuffer that ends before the address space does. -/
lemma toNat_pixelAddr {f : FbState} (harea : f.fbWidth.toNat * f.fbHeight.toNat ≤ 2 ^ 27)
    {index : BitVec 32} (hindex : InFramebuffer f index) :
    (pixelAddr index).toNat = fbPointer.toNat + 4 * index.toNat := by
  have hlt : index.toNat < 2 ^ 27 := hindex.trans_le harea
  have hpointer : fbPointer.toNat = 0xE0000000 := rfl
  have hfour : (4#32 * index).toNat = 4 * index.toNat := by
    rw [BitVec.toNat_mul]
    exact Nat.mod_eq_of_lt (by rw [BitVec.toNat_ofNat]; omega)
  rw [pixelAddr, BitVec.toNat_add, hfour, hpointer]
  exact Nat.mod_eq_of_lt (by omega)

/-- The pixels are in certain pages exactly when all bytes of the framebuffer are. -/
lemma forall_pixels_iff {f : FbState} (harea : f.fbWidth.toNat * f.fbHeight.toNat ≤ 2 ^ 27)
    {view : BitVec 32 → Option PageInfo}
    (hview : ∀ v w, pageOf v = pageOf w → view v = view w) (Q : ℕ → PageInfo → Prop) :
    (∀ index, InFramebuffer f index → PageWith view Q (pixelAddr index)) ↔
      ∀ v, InPixels f v → PageWith view Q v := by
  have hpointer : fbPointer.toNat = 0xE0000000 := rfl
  constructor
  · rintro hall v ⟨hlo, hhi⟩
    -- the pixel that the byte belongs to is in the same page
    have hnat : (BitVec.ofNat 32 ((v.toNat - fbPointer.toNat) / 4)).toNat =
        (v.toNat - fbPointer.toNat) / 4 := by
      rw [BitVec.toNat_ofNat]
      exact Nat.mod_eq_of_lt (by omega)
    have hindex : InFramebuffer f (BitVec.ofNat 32 ((v.toNat - fbPointer.toNat) / 4)) := by
      rw [InFramebuffer, hnat]
      omega
    have haddr := toNat_pixelAddr harea hindex
    have hpage : pageOf (pixelAddr (BitVec.ofNat 32 ((v.toNat - fbPointer.toNat) / 4))) =
        pageOf v := by
      rw [pageOf, pageOf, haddr, hnat]
      omega
    obtain ⟨info, hinfo, hQ⟩ := hall _ hindex
    rw [hview _ _ hpage] at hinfo
    rw [hpage] at hQ
    exact ⟨info, hinfo, hQ⟩
  · intro hall index hindex
    have haddr := toNat_pixelAddr harea hindex
    rw [InFramebuffer] at hindex
    exact hall _ ⟨by omega, by omega⟩

/-- The framebuffer of the smallest screen is in one page, which may be mapped right after
`memory_init`. -/
lemma runningCall_framebuffer (phys : BitVec 32) :
    Along Client.step (RunningCall {kernelDirectory})
      [.mapPage kernelDirectory fbPointer phys 0x03#32]
      (Client.start (memoryInit.exec blankState)) := by
  have hsetup := memoryInit_setUp blankState
  have hloaded := (memoryInit_loaded blankState).1
  generalize memoryInit.exec blankState = t at hsetup hloaded ⊢
  have hmapped := hsetup.identityMapped hloaded (by decide)
  have hlinked : 0x100000 ≤ (t.dirAddr kernelDirectory).val.toNat := by
    rw [hsetup.dirAddr]
    decide
  have hnull := hsetup.tables_eq (tableIndex fbPointer) (by decide)
  exact ⟨IdentityMapped.runningCall (c := Client.start t) hmapped hsetup.ready hlinked fbPointer
    phys 0x03#32 (by decide) (by decide) le_rfl (by norm_num)
    (Or.inr ⟨hnull, hsetup.least⟩), trivial⟩

/-- The smallest screen that `kernel_main` can draw on. -/
def smallestScreen : FbState := ⟨fun _ => 0#32, 15#32, 40#32⟩

lemma pageOf_smallestScreen {v : BitVec 32} (hv : InPixels smallestScreen v) :
    pageOf v = 0xE0000 := by
  obtain ⟨hlo, hhi⟩ := hv
  simp only [smallestScreen, fbPointer, BitVec.toNat_ofNat] at hlo hhi
  rw [pageOf]
  omega

lemma requestedView_smallestScreen (phys : BitVec 32) {v : BitVec 32}
    (hv : InPixels smallestScreen v) :
    requestedView kernelDirectory v [.mapPage kernelDirectory fbPointer phys 0x03#32] =
      some ⟨phys.toNat / 4096, true, false, false, false⟩ := by
  have hsame : pageOf v = pageOf fbPointer := (pageOf_smallestScreen hv).trans (by decide)
  rw [requestedView_of_samePage hsame]
  simp [requestedView, firstInSlot, lastOfPage, slotRequest, pageRequest, PageInfo.under,
    PageInfo.ofRequest]

end VVBright
