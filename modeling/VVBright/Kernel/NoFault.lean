import VVBright.Kernel.SharedMemory

/-!
# No pointer faults

When `paging_init` returns, the processor translates every address, while the manager, the terminal
and the client go on using physical addresses as pointers.  This works where the page tables map an
address to itself, that is in the pages 1 to 1023, as long as nobody changes the entries of frame 1,
where this mapping is, and as long as the processor finds it: the kernel directory has to be
page-aligned.

In the runs of `SharedMemory` the mapping stays intact, and every address that is dereferenced, by
whichever part, is reachable at that moment: the bitmap and the page tables, the cells of the
screen, and every byte the client owns.  The mapping allows stores, so that no access faults.
-/

namespace VVBright

open Traced

/-- Every address dereferenced in an event is reachable at the moment of the access.  An access of
the terminal to a cell is one to both of its bytes, in the memory the buffer is part of. -/
def EventReachable : SharedEvent → SharedMemory → Prop
  | .manager call, M => call.AccessesIn Reachable M.client.st
  | .terminal call, M => Traced.AccessesIn (fun t i => ∀ k < 2,
      Reachable { M.client.st with mem := memoryOf t.buffer }
        (vgaMemory + BitVec.ofNat 32 (2 * i + k))) call.run M.terminal
  | .store x _, M => Reachable M.client.st x

section

variable {M : SharedMemory}

/-- A call of the terminal: the cells of the screen are in mapped pages, and the page tables are the
same at every access. -/
lemma SharedInv.reachable_terminal (h : SharedInv M) (call : TerminalCall) :
    EventReachable (.terminal call) M := by
  intro access haccess k hk
  obtain ⟨hindex, hbeyond⟩ := (call.run_local h.column).1 access haccess
  have hlt : access.addr < 2000 := hindex
  have hmapped : IdentityMapped
      { M.client.st with mem := memoryOf access.before.buffer } := by
    refine h.own.mapped.withMem fun x hx => ?_
    exact memoryOf_of_not_text hbeyond (h.not_inTextMemory_of_manager (h.own.frame_one hx))
  have haddr : (vgaMemory + BitVec.ofNat 32 (2 * access.addr + k)).toNat =
      0xB8000 + (2 * access.addr + k) := by
    rw [vgaMemory]
    bv_omega
  exact hmapped.reachable (by omega) (by omega)

/-- Everything a permitted event dereferences is reachable. -/
theorem SharedInv.reachable (h : SharedInv M) {event : SharedEvent}
    (hok : PermittedEvent event M) : EventReachable event M := by
  cases event with
  | manager call => exact (h.own.accesses hok.1 hok.2.1 (h.takesBelow hok).2).1
  | terminal call => exact h.reachable_terminal call
  | store x b => exact h.own.reachable_of_owns hok

end

end VVBright
