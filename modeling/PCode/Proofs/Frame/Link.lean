import PCode.Frame
import PCode.Proofs.Stack.Effect
/-!
The links of frames: when a link can be read, and which links a new frame has.
-/

namespace PCode

/-- The stack with the links of a new frame on top. -/
def Stack.enter (s : Stack) (caller declaring next : Nat) : Stack :=
  { s with cells := s.cells ++ #[Word.ofIndex caller, Word.ofIndex declaring, Word.ofIndex next] }

variable {s t u v : Stack} {base slot n caller declaring next : Nat} {e : Error}

namespace Stack

theorem depth_enter : (s.enter caller declaring next).depth = s.depth + Frame.headerSize := by
  simp [enter, depth, Frame.headerSize]

theorem agrees_enter : s.Agrees s.depth (s.enter caller declaring next) :=
  ⟨rfl, rfl, fun _ ha => Array.getElem?_append_left ha⟩

theorem Bounded.enter (hs : s.Bounded) (room : s.depth + Frame.headerSize ≤ s.capacity) :
    (s.enter caller declaring next).Bounded := by
  have hr := hs.reserved
  apply agrees_enter.bounded
  · rw [depth_enter]
    omega
  · rw [depth_enter]
    exact room

theorem eq_enter_of_push (dynamic : s.push (Word.ofIndex caller) = .ok () t)
    (static : t.push (Word.ofIndex declaring) = .ok () u) (address : u.push (Word.ofIndex next) = .ok () v) :
    v = s.enter caller declaring next := by
  obtain ⟨-, rfl⟩ := push_eq_ok_iff.mp dynamic
  obtain ⟨-, rfl⟩ := push_eq_ok_iff.mp static
  obtain ⟨-, rfl⟩ := push_eq_ok_iff.mp address
  rw [enter, Stack.mk.injEq]
  exact ⟨by simp [← Array.toList_inj], rfl, rfl⟩

theorem cell_enter :
    (s.enter caller declaring next).cells[s.depth + slot]? =
      [Word.ofIndex caller, Word.ofIndex declaring, Word.ofIndex next][slot]? := by
  rw [enter, depth, Array.getElem?_append_right (Nat.le_add_right _ _), Nat.add_sub_cancel_left]
  exact List.getElem?_toArray

end Stack

namespace Frame

theorem link_eq_ok_iff :
    link s base slot = .ok n ↔ ∃ w, s.cells[base + slot]? = some w ∧ Word.toIndex? w = some n := by
  unfold link
  rcases hr : s.read (base + slot) with e | w
  · have hn : s.cells[base + slot]? = none := by
      rw [Array.getElem?_eq_none_iff]
      exact (Stack.read_eq_error_iff.mp hr).1
    simp [bind, Except.bind, hn]
  · rw [Stack.read_eq_ok_iff.mp hr]
    cases hi : Word.toIndex? w <;> simp [bind, Except.bind, pure, Except.pure, throw, throwThe,
      MonadExceptOf.throw, hi]

theorem link_eq_error (h : link s base slot = .error e) :
    (s.depth ≤ base + slot ∧ e = .invalidAddress (base + slot) s.sp) ∨
      ∃ w, s.cells[base + slot]? = some w ∧ Word.toIndex? w = none ∧ e = .invalidLink (base + slot) w := by
  unfold link at h
  rcases hr : s.read (base + slot) with e' | w
  · rw [hr] at h
    obtain rfl := Except.error.inj h
    exact .inl (Stack.read_eq_error_iff.mp hr)
  · rw [hr] at h
    cases hi : Word.toIndex? w with
    | none =>
      simp [bind, Except.bind, hi, throw, throwThe, MonadExceptOf.throw] at h
      exact .inr ⟨w, Stack.read_eq_ok_iff.mp hr, hi, h.symm⟩
    | some n => simp [bind, Except.bind, hi, pure, Except.pure] at h

theorem link_lt (h : link s base slot = .ok n) : n < Word.indexCount := by
  obtain ⟨w, -, hw⟩ := link_eq_ok_iff.mp h
  have := Word.toIndex?_eq_some_iff.mp hw
  have := Word.le_greatest w
  simp only [Word.greatest, Word.indexCount] at *
  omega

theorem link_of_cell (hc : t.cells[base + slot]? = s.cells[base + slot]?) (h : link s base slot = .ok n) :
    link t base slot = .ok n := by
  rw [link_eq_ok_iff] at h ⊢
  rwa [hc]

theorem link_of_agrees (ha : s.Agrees s.depth t) (h : link s base slot = .ok n) : link t base slot = .ok n := by
  obtain ⟨w, hw, -⟩ := link_eq_ok_iff.mp h
  have hlt : base + slot < s.depth := (Array.getElem?_eq_some_iff.mp hw).1
  exact link_of_cell (ha.cells _ hlt) h

/-- The cells that hold the links of a frame. -/
def linkCells (base : Nat) : List Nat := [base + dynamicLink, base + staticLink, base + returnAddress]

theorem mem_linkCells (hslot : slot < headerSize) : base + slot ∈ linkCells base := by
  simp only [headerSize] at hslot
  simp only [linkCells, dynamicLink, staticLink, returnAddress, List.mem_cons, List.not_mem_nil, or_false]
  omega

theorem lookup_linkCell {stores : List (Nat × Word)} (h : ∀ p ∈ stores, p.1 ∉ linkCells base)
    (hslot : slot < headerSize) : stores.lookup (base + slot) = none := by
  rw [List.lookup_eq_none_iff]
  intro p hp
  apply bne_iff_ne.mpr
  intro he
  exact h p hp (he ▸ mem_linkCells hslot)

theorem link_enter (hn : n < Word.indexCount) (h : [caller, declaring, next][slot]? = some n) :
    link (s.enter caller declaring next) s.depth slot = .ok n := by
  apply link_eq_ok_iff.mpr
  refine ⟨Word.ofIndex n, ?_, Word.toIndex?_ofIndex hn⟩
  have hm := congrArg (Option.map Word.ofIndex) h
  rw [Stack.cell_enter]
  simpa only [← List.getElem?_map, List.map, Option.map_some] using hm

end Frame
end PCode
