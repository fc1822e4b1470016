import PCode.Stack
/-!
What the operations of the stack do to its depth and its cells. An operation that succeeds keeps the
bounds of the stack, and every cell below the place where it works.
-/

namespace PCode.Stack

variable {s t u : Stack} {w : Word} {a k n : Nat}

/-- `t` has the bounds of `s`, and its cells below `n`. -/
structure Agrees (s : Stack) (n : Nat) (t : Stack) : Prop where
  capacity : t.capacity = s.capacity
  reserved : t.reserved = s.reserved
  cells : ∀ a < n, t.cells[a]? = s.cells[a]?

theorem Agrees.refl (s : Stack) (n : Nat) : s.Agrees n s := ⟨rfl, rfl, fun _ _ => rfl⟩

theorem Agrees.symm (h : s.Agrees n t) : t.Agrees n s :=
  ⟨h.capacity.symm, h.reserved.symm, fun a ha => (h.cells a ha).symm⟩

theorem Agrees.mono (h : s.Agrees n t) (hk : k ≤ n) : s.Agrees k t :=
  ⟨h.capacity, h.reserved, fun a ha => h.cells a (Nat.lt_of_lt_of_le ha hk)⟩

theorem Agrees.trans (h : s.Agrees n t) (h' : t.Agrees n u) : s.Agrees n u :=
  ⟨h'.capacity.trans h.capacity, h'.reserved.trans h.reserved, fun a ha => (h'.cells a ha).trans (h.cells a ha)⟩

/-- `t` has the bounds of `s`, and its cells below `n` but for the `stores`, the last of them first. -/
structure Patched (s : Stack) (n : Nat) (stores : List (Nat × Word)) (t : Stack) : Prop where
  capacity : t.capacity = s.capacity
  reserved : t.reserved = s.reserved
  cells : ∀ a < n, t.cells[a]? = (stores.lookup a).or s.cells[a]?

theorem Agrees.patched (h : s.Agrees n t) : s.Patched n [] t := ⟨h.capacity, h.reserved, h.cells⟩

theorem Agrees.patched_of_le {stores : List (Nat × Word)} (h : s.Agrees n t)
    (outside : ∀ p ∈ stores, n ≤ p.1) : s.Patched n stores t where
  capacity := h.capacity
  reserved := h.reserved
  cells a ha := by
    have hn : stores.lookup a = none := by
      rw [List.lookup_eq_none_iff]
      intro p hp
      exact bne_iff_ne.mpr (Nat.ne_of_lt (Nat.lt_of_lt_of_le ha (outside p hp)))
    rw [hn, Option.none_or, h.cells a ha]

theorem Patched.mono {stores : List (Nat × Word)} (h : s.Patched n stores t) (hk : k ≤ n) :
    s.Patched k stores t :=
  ⟨h.capacity, h.reserved, fun a ha => h.cells a (Nat.lt_of_lt_of_le ha hk)⟩

theorem Patched.trans {earlier later : List (Nat × Word)} (h : s.Patched n earlier t)
    (h' : t.Patched n later u) : s.Patched n (later ++ earlier) u where
  capacity := h'.capacity.trans h.capacity
  reserved := h'.reserved.trans h.reserved
  cells a ha := by
    rw [h'.cells a ha, h.cells a ha, List.lookup_append, Option.or_assoc]

theorem cell_take {cells : Array Word} (ha : a < n) : (cells.take n)[a]? = cells[a]? := by
  rw [Array.take_eq_extract, Array.getElem?_extract]
  split
  · rw [Nat.zero_add]
  · rw [Array.getElem?_eq_none (by omega)]

def drop (s : Stack) (k : Nat) : Stack := { s with cells := s.cells.take (s.depth - k) }

theorem drop_zero (s : Stack) : s.drop 0 = s := by
  simp [drop, depth]

theorem depth_drop (s : Stack) (k : Nat) : (s.drop k).depth = s.depth - k := by
  simp [drop, depth]

theorem drop_drop (s : Stack) (k n : Nat) : (s.drop k).drop n = s.drop (k + n) := by
  have hm : min (s.cells.size - (k + n)) (s.cells.size - k) = s.cells.size - (k + n) := by omega
  simp [drop, depth, Nat.sub_sub, hm]

theorem agrees_drop (s : Stack) (k : Nat) : s.Agrees (s.depth - k) (s.drop k) where
  capacity := rfl
  reserved := rfl
  cells _ ha := cell_take ha

theorem depth_push (h : s.push w = .ok () t) : t.depth = s.depth + 1 := by
  obtain ⟨-, rfl⟩ := push_eq_ok_iff.mp h
  simp [depth]

theorem agrees_push (h : s.push w = .ok () t) : s.Agrees s.depth t := by
  obtain ⟨-, rfl⟩ := push_eq_ok_iff.mp h
  constructor
  · rfl
  · rfl
  intro a ha
  rw [Array.getElem?_push_lt ha, Array.getElem?_eq_getElem ha]

theorem depth_pop (h : s.pop = .ok w t) : s.depth = t.depth + 1 ∧ s.reserved ≤ t.depth := by
  obtain ⟨hr, -, rfl⟩ := pop_eq_ok_iff.mp h
  simp only [depth, Array.size_pop] at hr ⊢
  omega

theorem pop_eq_drop (h : s.pop = .ok w t) : t = s.drop 1 := by
  obtain ⟨-, -, rfl⟩ := pop_eq_ok_iff.mp h
  simp [drop, depth]

theorem agrees_pop (h : s.pop = .ok w t) : s.Agrees t.depth t := by
  have hd := (depth_pop h).1
  obtain rfl := pop_eq_drop h
  exact (agrees_drop s 1).mono (by omega)

theorem room_of_push (room : s.ensureRoom (n + 1) = .ok ()) (h : s.push w = .ok () t) :
    t.ensureRoom n = .ok () := by
  have hd := depth_push h
  have hc := (agrees_push h).capacity
  rw [ensureRoom_eq_ok_iff] at room ⊢
  omega

theorem push_ne_error_of_room {e : Error} (room : s.ensureRoom (n + 1) = .ok ()) : s.push w ≠ .error e t := by
  rw [ensureRoom_eq_ok_iff] at room
  rw [ne_eq, push_eq_error_iff]
  omega

theorem push_ne_error_of_pop {x : Word} {e : Error} (room : s.depth ≤ s.capacity) (h : s.pop = .ok w t) :
    t.push x ≠ .error e u := by
  have hd := (depth_pop h).1
  have hc := (agrees_pop h).capacity
  rw [ne_eq, push_eq_error_iff]
  omega

theorem depth_write (h : s.write a w = .ok () t) : t.depth = s.depth := by
  obtain ⟨-, rfl⟩ := write_eq_ok_iff.mp h
  simp [depth]

theorem agrees_write (h : s.write a w = .ok () t) : s.Agrees a t := by
  obtain ⟨-, rfl⟩ := write_eq_ok_iff.mp h
  exact ⟨rfl, rfl, fun b hb => Array.getElem?_setIfInBounds_ne (Nat.ne_of_gt hb)⟩

theorem cell_write (h : s.write a w = .ok () t) (b : Nat) :
    t.cells[b]? = if b = a then some w else s.cells[b]? := by
  obtain ⟨ha, rfl⟩ := write_eq_ok_iff.mp h
  split
  case isTrue hb => subst hb; exact Array.getElem?_setIfInBounds_self_of_lt ha
  case isFalse hb => exact Array.getElem?_setIfInBounds_ne (Ne.symm hb)

theorem patched_write (h : s.write a w = .ok () t) (n : Nat) : s.Patched n [(a, w)] t where
  capacity := (agrees_write h).capacity
  reserved := (agrees_write h).reserved
  cells b _ := by
    rw [cell_write h]
    by_cases hb : b = a
    · subst hb
      simp
    · have hn : (b == a) = false := beq_false_of_ne hb
      simp [hb, hn, List.lookup_cons]

theorem depth_grow (h : s.grow n = .ok () t) : t.depth = s.depth + n := by
  obtain ⟨-, rfl⟩ := grow_eq_ok_iff.mp h
  simp [depth]

theorem agrees_grow (h : s.grow n = .ok () t) : s.Agrees s.depth t := by
  obtain ⟨-, rfl⟩ := grow_eq_ok_iff.mp h
  exact ⟨rfl, rfl, fun a ha => Array.getElem?_append_left ha⟩

theorem agrees_truncate_max (s : Stack) (n : Nat) : s.Agrees (max n s.reserved) (s.truncate n) where
  capacity := rfl
  reserved := rfl
  cells _ ha := cell_take ha

theorem agrees_truncate (s : Stack) (n : Nat) : s.Agrees n (s.truncate n) :=
  (agrees_truncate_max s n).mono (Nat.le_max_left n s.reserved)

structure Bounded (s : Stack) : Prop where
  reserved : s.reserved ≤ s.depth
  capacity : s.depth ≤ s.capacity

theorem Agrees.bounded (h : s.Agrees n t) (hr : s.reserved ≤ t.depth) (hc : t.depth ≤ s.capacity) :
    t.Bounded := by
  constructor
  · rw [h.reserved]
    exact hr
  · rw [h.capacity]
    exact hc

theorem Bounded.push (hs : s.Bounded) (h : s.push w = .ok () t) : t.Bounded := by
  have hr := hs.reserved
  have hc := (push_eq_ok_iff.mp h).1
  have hd := depth_push h
  apply (agrees_push h).bounded <;> omega

theorem Bounded.pop (hs : s.Bounded) (h : s.pop = .ok w t) : t.Bounded := by
  have hc := hs.capacity
  have hd := depth_pop h
  apply (agrees_pop h).bounded <;> omega

theorem Bounded.write (hs : s.Bounded) (h : s.write a w = .ok () t) : t.Bounded := by
  have hr := hs.reserved
  have hc := hs.capacity
  have hd := depth_write h
  apply (agrees_write h).bounded <;> omega

theorem Bounded.grow (hs : s.Bounded) (h : s.grow n = .ok () t) : t.Bounded := by
  have hr := hs.reserved
  have hc := (grow_eq_ok_iff.mp h).1
  have hd := depth_grow h
  apply (agrees_grow h).bounded <;> omega

theorem Bounded.truncate (hs : s.Bounded) (n : Nat) : (s.truncate n).Bounded := by
  have hr := hs.reserved
  have hc := hs.capacity
  have hd := depth_truncate s n
  apply (agrees_truncate s n).bounded <;> omega

theorem Bounded.drop (hs : s.Bounded) (hn : n ≤ s.depth - s.reserved) : (s.drop n).Bounded := by
  have hr := hs.reserved
  have hc := hs.capacity
  have hd := depth_drop s n
  apply (agrees_drop s n).bounded <;> omega

end PCode.Stack
