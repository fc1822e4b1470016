import PCode.Proofs.Session.Bounds
/-!
A call and the return that matches it. Whatever runs between the two, if it leaves the links of the
frame alone and never goes below them, then the caller finds its frame again as it was, but for the
cells that were stored into.
-/

namespace PCode

open PCode.Frame (headerSize dynamicLink returnAddress linkCells)

namespace Execution

def store? (x : Execution) : Option (Nat × Word) := x.core.store? x.instruction

/-- What the executions store, and where, the last of them first. -/
def stores (log : List Execution) : List (Nat × Word) := (log.filterMap store?).reverse

theorem stores_concat (log : List Execution) (x : Execution) :
    stores (log ++ [x]) = x.store?.toList ++ stores log := by
  rw [stores, List.filterMap_append, List.reverse_append]
  cases h : x.store? with
  | none => simp [h, stores]
  | some p => simp [h, stores]

/-- The execution works above the links of the frame at `d`, and does not return from it. -/
structure Spares (d : Nat) (x : Execution) : Prop where
  pops : x.core.PopsAbove x.instruction (d + headerSize)
  links : ∀ p, x.store? = some p → p.1 ∉ linkCells d
  base : x.instruction = .opr .ret → d + headerSize ≤ x.core.base

end Execution

open Execution

namespace Machine

variable {program : Program} {settings : Settings} {log body : List Execution} {m m₁ m₂ m₃ : Machine}
  {level target d : Nat}

theorem Executes.called (h : m.Executes (.cal level target) m₁) :
    ∃ declaring, m₁.core =
      ⟨target, m.core.stack.depth, m.core.stack.enter m.core.base declaring (m.core.pc + 1)⟩ := by
  obtain ⟨declaring, -, hc⟩ := h.enters
  exact ⟨declaring, hc⟩

theorem Executes.returned (h : m.Executes (.opr .ret) m₁) (inner : m.core.base ≠ Frame.globalBase) :
    ∃ caller next, Frame.link m.core.stack m.core.base dynamicLink = .ok caller ∧
      Frame.link m.core.stack m.core.base returnAddress = .ok next ∧
      m₁.core = ⟨next, caller, m.core.stack.truncate m.core.base⟩ := by
  obtain ⟨_, _, _, _, _, performs⟩ := h.performs
  generalize m₁.core = d, hc : m.core.next = c at performs
  cases performs with
  | finish outermost =>
    cases hc
    exact absurd outermost inner
  | ret _ dynamic _ address =>
    cases hc
    exact ⟨_, _, dynamic, address, rfl⟩

/-- What `log` leaves of the stack `s` of a call that has laid a frame at `d`. -/
structure Inside (d : Nat) (s : Stack) (log : List Execution) (m : Machine) : Prop where
  bounded : m.core.stack.Bounded
  depth : d + headerSize ≤ m.core.stack.depth
  cells : s.Patched (d + headerSize) (stores log) m.core.stack

theorem kept_of_moves {c c' : Core} {i : Instruction} (hx : Spares d ⟨c, i⟩)
    (hd : d + headerSize ≤ c.stack.depth) (hm : Core.Moves program c.next i c') :
    d + headerSize ≤ c'.stack.depth ∧
      c.stack.Patched (d + headerSize) (store? ⟨c, i⟩).toList c'.stack := by
  cases hm with
  | called =>
    refine ⟨?_, (Stack.agrees_enter.mono hd).patched⟩
    rw [Stack.depth_enter]
    exact Nat.le_add_right_of_le hd
  | returned =>
    have hbase := hx.base rfl
    have ha := (Stack.agrees_truncate c.stack c.base).mono hbase
    refine ⟨?_, ha.patched⟩
    rw [Stack.depth_truncate]
    exact Nat.le_min.mpr ⟨hd, Nat.le_trans hbase (Nat.le_max_left _ _)⟩
  | stayed _ height _ cells =>
    have hp := hx.pops.le hd
    exact ⟨Nat.le_trans hp height, cells.mono hp⟩

theorem Inside.step {s : Stack} {i : Instruction} (h : m₁.Inside d s body)
    (hx : Spares d ⟨m₁.core, i⟩) (he : m₁.Executes i m₂) : m₂.Inside d s (body ++ [⟨m₁.core, i⟩]) := by
  obtain ⟨hd, hk⟩ := kept_of_moves hx h.depth (he.moves h.bounded)
  constructor
  · exact he.bounded h.bounded
  · exact hd
  · rw [stores_concat]
    exact h.cells.trans hk

theorem Runs.inside (h : m₁.Runs body m₂) (hb : m₁.core.stack.Bounded)
    (hd : m₁.core.stack.depth = d + headerSize) (spares : ∀ x ∈ body, x.Spares d) :
    m₂.Inside d m₁.core.stack body := by
  induction h with
  | none =>
    have ha := Stack.Agrees.refl m₁.core.stack (d + headerSize)
    exact ⟨hb, Nat.le_of_eq hd.symm, ha.patched⟩
  | step _ he ih =>
    apply Inside.step _ _ he
    · apply ih
      intro x hx
      exact spares x (List.mem_append_left _ hx)
    · exact spares _ (List.mem_append_right _ (List.mem_singleton_self _))

theorem cell_of_spared {s t : Stack} {slot : Nat} (hs : s.Patched (d + headerSize) (stores body) t)
    (hslot : slot < headerSize) (spares : ∀ x ∈ body, x.Spares d) :
    t.cells[d + slot]? = s.cells[d + slot]? := by
  have hn : (stores body).lookup (d + slot) = none := by
    apply Frame.lookup_linkCell _ hslot
    intro p hp
    obtain ⟨x, hx, hw⟩ := List.mem_filterMap.mp (List.mem_reverse.mp hp)
    exact (spares x hx).links p hw
  rw [hs.cells _ (Nat.add_lt_add_left hslot d), hn, Option.none_or]

theorem Reached.restores (reached : Reached (fun _ _ s => s.machine.Addressable) program settings log m)
    (addressable : m.Addressable) (call : m.Executes (.cal level target) m₁) (run : m₁.Runs body m₂)
    (spares : ∀ x ∈ body, x.Spares m.core.stack.depth) (ret : m₂.Executes (.opr .ret) m₃)
    (back : m₂.core.base = m.core.stack.depth) :
    m₃.core.pc = m.core.pc + 1 ∧ m₃.core.base = m.core.base ∧
      m₃.core.stack.depth = m.core.stack.depth ∧
      ∀ a < m.core.stack.depth,
        m₃.core.stack.cells[a]? = ((stores body).lookup a).or m.core.stack.cells[a]? := by
  have sized := reached.sized
  have hpos := sized.header_le
  have hbase : m.core.base < Word.indexCount := reached.base_lt fun h => h
  have hpc : m.core.pc + 1 < Word.indexCount := by
    obtain ⟨_, _, _, _, _, _, _, hi, _⟩ := call
    exact Nat.lt_of_le_of_lt (pc_lt_of_next? hi) addressable.program
  obtain ⟨declaring, h₁⟩ := call.called
  have hd₁ : m₁.core.stack.depth = m.core.stack.depth + headerSize := by rw [h₁, Stack.depth_enter]
  have inside := run.inside (call.bounded sized.bounded) hd₁ spares
  rw [h₁] at inside
  -- The links that the return reads are the ones that the call has laid.
  have links (slot n : Nat) (hslot : slot < headerSize) (hn : n < Word.indexCount)
      (h : [m.core.base, declaring, m.core.pc + 1][slot]? = some n) :
      Frame.link m₂.core.stack m.core.stack.depth slot = .ok n := by
    apply Frame.link_of_cell (cell_of_spared inside.cells hslot spares)
    exact Frame.link_enter hn h
  have hdynamic := links dynamicLink m.core.base (by decide) hbase rfl
  have haddress := links returnAddress (m.core.pc + 1) (by decide) hpc rfl
  have inner : m₂.core.base ≠ Frame.globalBase := by
    rw [back]
    exact Nat.ne_of_gt (Nat.lt_of_lt_of_le (Nat.succ_pos 2) hpos)
  obtain ⟨caller, next, dynamic, address, h₃⟩ := ret.returned inner
  rw [back] at dynamic address h₃
  obtain rfl := Except.ok.inj (hdynamic.symm.trans dynamic)
  obtain rfl := Except.ok.inj (haddress.symm.trans address)
  rw [h₃]
  refine ⟨rfl, rfl, ?_, ?_⟩
  · have hd := inside.depth
    have hr : m₂.core.stack.reserved = headerSize := inside.cells.reserved.trans sized.reserved
    rw [Stack.depth_truncate, hr, Nat.max_eq_left hpos]
    omega
  · intro a ha
    rw [(Stack.agrees_truncate _ _).cells a ha, inside.cells.cells a (Nat.lt_add_right _ ha),
      Stack.agrees_enter.cells a ha]

/-- About to call a procedure that stores 9 into the cell of its caller that holds 5. -/
def calling : Session QueueChannel :=
  (Session.scripted (.ofProgram (.ofInstructions
    [.lit 5, .cal 0 3, .sio .halt, .lit 9, .sto 1 3, .opr .ret])) []).step.2

theorem restores_calling :
    (calling.after 4).machine.core.pc = 2 ∧ (calling.after 4).machine.core.base = 0 ∧
      (calling.after 4).machine.core.stack.depth = 4 ∧
      ∀ a < 4, (calling.after 4).machine.core.stack.cells[a]? =
        ([(3, 9)].lookup a).or calling.machine.core.stack.cells[a]? := by
  have built : Reached (fun _ _ s => s.machine.Addressable) calling.machine.program {} []
      (.ofProgram calling.machine.program) := .built .ofProgram
  have reached := built.step (s := .scripted _ []) ⟨by decide, by decide⟩
  have call : calling.machine.Executes (.cal 0 3) (calling.after 1).machine := executes_of_step rfl rfl
  have first : (calling.after 1).machine.Executes (.lit 9) (calling.after 2).machine :=
    executes_of_step rfl rfl
  have second : (calling.after 2).machine.Executes (.sto 1 3) (calling.after 3).machine :=
    executes_of_step rfl rfl
  have ret : (calling.after 3).machine.Executes (.opr .ret) (calling.after 4).machine :=
    executes_of_step rfl rfl
  have spares : ∀ x ∈ [] ++ [Execution.mk (calling.after 1).machine.core (.lit 9)] ++
      [⟨(calling.after 2).machine.core, .sto 1 3⟩], x.Spares calling.machine.core.stack.depth := by
    simp only [List.nil_append, List.cons_append, List.mem_cons, List.not_mem_nil, or_false]
    rintro x (rfl | rfl)
    · exact ⟨fun a h _ => Nat.le_trans (by decide) h, nofun, nofun⟩
    · refine ⟨fun a h _ => Nat.le_trans (by decide) h, ?_, nofun⟩
      intro p hp
      obtain rfl := Option.some.inj hp
      decide
  exact reached.restores ⟨by decide, by decide⟩ call ((Runs.none.step first).step second) spares ret rfl

end Machine
end PCode
