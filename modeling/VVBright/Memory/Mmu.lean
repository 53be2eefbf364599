import VVBright.Foundation.Cache
import VVBright.Memory.BootMapping

/-!
# Cached translations

With paging enabled the processor keeps translations of the loaded directory and uses them without
looking at the tables again.  It walks the tables for any page at any time, not only when the page
is accessed, and forgets a translation at any time; only translations of present pages are kept.
Loading CR3 in `switch_directory` forgets them all, since no entry of `map_page` is global.
`map_page` itself tells the processor nothing.

Whether this is noticed is a question about the list of calls alone.  The processor may have kept
the translation of any page that was present, so the calls after `memory_init` are safe under every
behaviour of the processor exactly when none of them changes a page that is already mapped in the
loaded directory (`NoRemap`).
-/

namespace VVBright

open Traced

/-! ## The processor and the kernel -/

/-- What the kernel does to the address spaces. -/
inductive KernelAct where
  | call (call : Call)
  | switchDirectory (d : DirPtr)

/-- The kernel acts, or the processor keeps or forgets a translation. -/
inductive MmuEvent where
  | kernel (act : KernelAct)
  /-- The processor walks the loaded directory for `v` and keeps what it finds. -/
  | fill (v : BitVec 32)
  /-- The processor forgets the translation of a page. -/
  | evict (page : ℕ)

/-- The memory manager with its client, and the translations the processor keeps. -/
structure Mmu where
  client : Client
  tlb : ℕ → Option PageInfo

def KernelAct.run : KernelAct → Client → Client
  | .call request, c => Client.step request c
  | .switchDirectory d, c => { c with st := (VVBright.switchDirectory d).exec c.st }

/-- The page an address lies in. -/
def pageOf (v : BitVec 32) : ℕ := v.toNat / 4096

/-- Without paging every address is a physical one. -/
def PageInfo.unpaged (v : BitVec 32) : PageInfo := ⟨pageOf v, true, true, false, false⟩

namespace Mmu

def step : MmuEvent → Mmu → Mmu
  | .kernel (.call call), m => { m with client := (KernelAct.call call).run m.client }
  | .kernel (.switchDirectory d), m =>
    { client := (KernelAct.switchDirectory d).run m.client, tlb := fun _ => none }
  | .fill v, m =>
    if PagingOn m.client.st then
      { m with tlb := Cache.fill pageOf m.client.st.view v m.tlb }
    else
      m
  | .evict page, m => { m with tlb := Cache.evict page m.tlb }

/-- What an access to `v` is translated with. -/
def translate (m : Mmu) (v : BitVec 32) : Option PageInfo :=
  if PagingOn m.client.st then
    Cache.lookup pageOf m.tlb m.client.st.view v
  else
    some (PageInfo.unpaged v)

/-- The processor has kept nothing yet. -/
def start (s : MemoryState) : Mmu := ⟨Client.start s, fun _ => none⟩

end Mmu

/-! ## Acts of the kernel -/

def MmuEvent.act? : MmuEvent → Option KernelAct
  | .kernel act => some act
  | _ => none

def KernelAct.call? : KernelAct → Option Call
  | .call request => some request
  | _ => none

/-- What the kernel does in a run. -/
def kernelActs (events : List MmuEvent) : List KernelAct := events.filterMap MmuEvent.act?

/-- The requests made up to now, those of the start and those of the acts. -/
def requestsOf (boot : List Call) (acts : List KernelAct) : List Call :=
  boot ++ acts.filterMap KernelAct.call?

/-- The directory that is loaded after some acts; `paging_init` has loaded the kernel directory. -/
def loadedAfter (acts : List KernelAct) : DirPtr :=
  acts.foldl (fun loaded act => match act with
    | .switchDirectory d => d
    | .call _ => loaded) kernelDirectory

/-- The page of `v` in the loaded directory, as the callers asked for it. -/
def loadedView (boot : List Call) (acts : List KernelAct) (v : BitVec 32) : Option PageInfo :=
  requestedView (loadedAfter acts) v (requestsOf boot acts)

/-- What the kernel may do: the calls of `RunningCall` and switches between the directories in
`D`. -/
def PermittedAct (D : Set DirPtr) : KernelAct → Client → Prop
  | .call call, c => RunningCall D call c
  | .switchDirectory d, _ => d ∈ D

/-- No call changes a page that is mapped in the loaded directory. -/
def NoRemap (boot : List Call) (acts : List KernelAct) : Prop :=
  ∀ before d virt phys flags, before ++ [.call (.mapPage d virt phys flags)] <+: acts →
    loadedAfter before = d →
    requestedView d virt (requestsOf boot before) = none ∨
      requestedView d virt (requestsOf boot before ++ [.mapPage d virt phys flags]) =
        requestedView d virt (requestsOf boot before)

section

variable (boot : List Call) (acts : List KernelAct)

lemma requestsOf_concat_call (call : Call) :
    requestsOf boot (acts ++ [.call call]) = requestsOf boot acts ++ [call] := by
  rw [requestsOf, List.filterMap_append, ← List.append_assoc]
  rfl

lemma requestsOf_concat_switch (d : DirPtr) :
    requestsOf boot (acts ++ [.switchDirectory d]) = requestsOf boot acts := by
  rw [requestsOf, List.filterMap_append]
  exact congrArg _ (List.append_nil _)

lemma loadedAfter_concat_call (call : Call) :
    loadedAfter (acts ++ [.call call]) = loadedAfter acts := by
  rw [loadedAfter, List.foldl_append]
  rfl

lemma loadedAfter_concat_switch (d : DirPtr) :
    loadedAfter (acts ++ [.switchDirectory d]) = d := by
  rw [loadedAfter, List.foldl_append]
  rfl

end

/-! ## Requests -/

section

variable {d : DirPtr} {v : BitVec 32} {calls : List Call} {call : Call}

/-- A request is one for a page, not for an address. -/
lemma lastOfPage_of_samePage {w : BitVec 32} (h : pageOf v = pageOf w) :
    lastOfPage d v calls = lastOfPage d w calls := by
  have hpage : pageRequest d v = pageRequest d w := by
    rw [pageOf, pageOf] at h
    funext call
    cases call <;> simp only [pageRequest, h]
  rw [lastOfPage, lastOfPage, hpage]

lemma requestedView_of_samePage {w : BitVec 32} (h : pageOf v = pageOf w) :
    requestedView d v calls = requestedView d w calls := by
  have hslot : slotRequest d v = slotRequest d w := by
    funext call
    cases call <;> simp only [slotRequest, (index_of_samePage h).1]
  rw [requestedView, requestedView, firstInSlot, firstInSlot, hslot, lastOfPage_of_samePage h]

/-- A call that does not ask for the page leaves it as it was. -/
lemma requestedView_concat (h : pageRequest d v call = none) :
    requestedView d v (calls ++ [call]) = requestedView d v calls := by
  rw [requestedView, requestedView, lastOfPage_append, h, Option.none_or, firstInSlot_append]
  cases hfirst : firstInSlot d v calls with
  | some first => rfl
  | none =>
    -- the call may be the first in the 4 MB, but nothing asked for this page
    rw [lastOfPage_eq_none hfirst]
    cases slotRequest d v call <;> rfl

end

/-- Without a remapping, a page that is mapped in the loaded directory stays as it is. -/
lemma NoRemap.keeps {boot : List Call} {acts before : List KernelAct} (h : NoRemap boot acts)
    {call : Call} (hbefore : before ++ [.call call] <+: acts) (v : BitVec 32) :
    loadedView boot before v = none ∨
      loadedView boot (before ++ [.call call]) v = loadedView boot before v := by
  rw [loadedView, loadedView, loadedAfter_concat_call, requestsOf_concat_call]
  cases hpage : pageRequest (loadedAfter before) v call with
  | none => exact Or.inr (requestedView_concat hpage)
  | some info =>
    cases call with
    | mapPage d virt phys flags =>
      rw [pageRequest, Option.ite_none_right_eq_some] at hpage
      obtain ⟨⟨rfl, hsame⟩, -⟩ := hpage
      have hview := h before _ virt phys flags hbefore rfl
      rwa [requestedView_of_samePage hsame, requestedView_of_samePage hsame] at hview
    | _ => exact absurd hpage.symm (Option.some_ne_none info)

/-! ## Runs -/

/-- The processor does not interfere with the kernel. -/
lemma client_run (events : List MmuEvent) (m : Mmu) :
    (runActions Mmu.step events m).client =
      runActions KernelAct.run (kernelActs events) m.client := by
  induction events generalizing m with
  | nil => rfl
  | cons event events ih =>
    rw [runActions, ih]
    cases event with
    | kernel act => cases act <;> rfl
    | fill v =>
      rw [Mmu.step]
      split <;> rfl
    | evict page => rfl

section

variable {D : Set DirPtr} {boot : List Call} {s : MemoryState} {acts : List KernelAct}
  (hboot : Represents D boot kernelDirectory (Client.start s))
  (hrun : Along KernelAct.run (PermittedAct D) acts (Client.start s))

include hboot hrun

/-- The directories represent the requests, and CR3 holds the directory loaded last. -/
lemma represents_run : Represents D (requestsOf boot acts) (loadedAfter acts)
    (runActions KernelAct.run acts (Client.start s)) := by
  induction acts using List.reverseRecOn with
  | nil =>
    rw [requestsOf, List.filterMap_nil, List.append_nil]
    exact hboot
  | append_singleton acts act ih =>
    obtain ⟨hacts, hact, -⟩ := along_append.mp hrun
    rw [runActions_append]
    cases act with
    | call call =>
      rw [requestsOf_concat_call, loadedAfter_concat_call]
      exact (ih hacts).call hact.1
    | switchDirectory d =>
      rw [requestsOf_concat_switch, loadedAfter_concat_switch]
      exact (ih hacts).switchDirectory hact

/-- In every run of the permitted acts paging stays on, and the tables show the requests. -/
lemma view_run {events : List MmuEvent} (hevents : kernelActs events <+: acts) {m : Mmu}
    (hm : m = runActions Mmu.step events (Mmu.start s)) :
    PagingOn m.client.st ∧ m.client.st.view = loadedView boot (kernelActs events) := by
  have hclient : m.client = runActions KernelAct.run (kernelActs events) (Client.start s) := by
    rw [hm, client_run, Mmu.start]
  have hinv := represents_run hboot (hrun.initial hevents)
  rw [← hclient] at hinv
  exact ⟨hinv.on, funext hinv.view_eq⟩

/-- Without a remapping the processor keeps current translations only. -/
lemma fresh_run (hno : NoRemap boot acts) {events : List MmuEvent}
    (hevents : kernelActs events <+: acts) :
    Cache.Fresh pageOf (runActions Mmu.step events (Mmu.start s)).tlb
      (loadedView boot (kernelActs events)) := by
  induction events using List.reverseRecOn with
  | nil => exact Cache.fresh_empty
  | append_singleton events event ih =>
    have hacts : kernelActs (events ++ [event]) = kernelActs events ++ kernelActs [event] :=
      List.filterMap_append
    rw [hacts] at hevents
    have hbefore : kernelActs events <+: acts := (List.prefix_append _ _).trans hevents
    have hfresh := ih hbefore
    obtain ⟨hon, hview⟩ := view_run hboot hrun hbefore rfl
    rw [runActions_append, hacts]
    generalize runActions Mmu.step events (Mmu.start s) = m at hfresh hon hview ⊢
    cases event with
    | kernel act =>
      cases act with
      | call call => exact hfresh.of_extends (hno.keeps hevents)
      | switchDirectory d => exact Cache.fresh_empty
    | fill v =>
      rw [runActions, runActions, Mmu.step, if_pos hon, hview]
      change Cache.Fresh pageOf (Cache.fill pageOf _ v _) (loadedView boot (_ ++ []))
      rw [List.append_nil]
      exact hfresh.fill (fun a a' hpage => requestedView_of_samePage hpage) v
    | evict page =>
      change Cache.Fresh pageOf (Cache.evict page _) (loadedView boot (_ ++ []))
      rw [List.append_nil]
      exact hfresh.evict page

/-- If the processor may have kept a page that a call changes, some access goes by the old one. -/
lemma noRemap_of_translate
    (h : ∀ events, kernelActs events <+: acts →
      (runActions Mmu.step events (Mmu.start s)).translate = loadedView boot (kernelActs events)) :
    NoRemap boot acts := by
  intro before d virt phys flags hbefore hloaded
  cases hold : requestedView d virt (requestsOf boot before) with
  | none => exact Or.inl rfl
  | some info =>
    right
    have hview : loadedView boot before virt = some info := by
      rw [loadedView, hloaded]
      exact hold
    -- the processor keeps the translation of the page right before the call
    have hevents : kernelActs (before.map .kernel) = before := by
      rw [kernelActs, List.filterMap_map]
      exact List.filterMap_some
    have hacts : kernelActs (before.map .kernel ++ [.fill virt,
        .kernel (.call (.mapPage d virt phys flags))]) =
          before ++ [.call (.mapPage d virt phys flags)] := by
      rw [kernelActs, List.filterMap_append, ← kernelActs, hevents]
      rfl
    have htranslate := congrFun (h _ (hacts ▸ hbefore)) virt
    have hbefore' : kernelActs (before.map .kernel) <+: acts := by
      rw [hevents]
      exact (List.prefix_append _ _).trans hbefore
    obtain ⟨hon, hwalk⟩ := view_run hboot hrun hbefore' rfl
    obtain ⟨hon', -⟩ := view_run hboot hrun (hacts ▸ hbefore) rfl
    rw [hevents] at hwalk
    have hkept : (runActions Mmu.step (before.map .kernel ++ [.fill virt,
        .kernel (.call (.mapPage d virt phys flags))]) (Mmu.start s)).tlb (pageOf virt) =
          some info := by
      rw [runActions_append]
      generalize runActions Mmu.step (before.map .kernel) (Mmu.start s) = m at hon hwalk ⊢
      rw [runActions, Mmu.step, if_pos hon]
      refine Cache.fill_of_eq_some ?_
      rw [hwalk, hview]
    rw [Mmu.translate, if_pos hon', Cache.lookup, hkept, Option.some_or, hacts, loadedView,
      loadedAfter_concat_call, hloaded, requestsOf_concat_call] at htranslate
    exact htranslate.symm

end

end VVBright
