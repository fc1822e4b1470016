import Mathlib.Data.List.Induction
import PCode.Proofs.Stack.Effect
/-!
The stack as a list of words, the top one last, with a bound at either end. Whatever calls are made on it, each
does and answers what the same call does on the list.
-/

namespace PCode.Stack

inductive Call where
  | push (w : Word)
  | pop
  | peek (offset : Nat)
  | read (address : Nat)
  | write (address : Nat) (w : Word)
  | grow (amount : Nat)
  | ensureRoom (count : Nat)
  | truncate (length : Nat)
  deriving DecidableEq

variable {s t : Stack} {c : Call} {x : Option Word} {e : Error} {capacity reserved : Nat}

/-- What an operation that changes the stack answers, and the stack it leaves, also if it fails. -/
def changed {α : Type} (word : α → Option Word) : EStateM.Result Error Stack α → Except Error (Option Word) × Stack
  | .ok a t => (.ok (word a), t)
  | .error e t => (.error e, t)

/-- What a call answers, with a word if its operation gives one, and the stack it leaves. -/
def call (s : Stack) : Call → Except Error (Option Word) × Stack
  | .push w => changed (fun _ => none) (s.push w)
  | .pop => changed some s.pop
  | .peek offset => ((s.peek offset).map some, s)
  | .read address => ((s.read address).map some, s)
  | .write address w => changed (fun _ => none) (s.write address w)
  | .grow amount => changed (fun _ => none) (s.grow amount)
  | .ensureRoom count => ((s.ensureRoom count).map fun _ => none, s)
  | .truncate length => (.ok none, s.truncate length)

/-- What a call answers on a list of words, and the list it leaves. -/
def answer (capacity reserved : Nat) (ws : List Word) : Call → Except Error (Option Word) × List Word
  | .push w =>
    if ws.length < capacity then (.ok none, ws ++ [w]) else (.error (.stackOverflow capacity), ws)
  | .pop =>
    if reserved < ws.length then (.ok ws.getLast?, ws.dropLast) else (.error .stackUnderflow, ws)
  | .peek offset =>
    if offset < ws.length then (.ok ws.reverse[offset]?, ws)
    else (.error (.invalidStackOffset offset ws.length), ws)
  | .read address =>
    if address < ws.length then (.ok ws[address]?, ws)
    else (.error (.invalidAddress address (ws.length - 1)), ws)
  | .write address w =>
    if address < ws.length then (.ok none, ws.set address w)
    else (.error (.invalidAddress address (ws.length - 1)), ws)
  | .grow amount =>
    if ws.length + amount ≤ capacity then (.ok none, ws ++ List.replicate amount 0)
    else (.error (.stackOverflow capacity), ws)
  | .ensureRoom count =>
    if ws.length + count ≤ capacity then (.ok none, ws) else (.error (.stackOverflow capacity), ws)
  | .truncate length => (.ok none, ws.take (min ws.length (max length reserved)))

def words (s : Stack) : List Word := s.cells.toList

theorem length_words (s : Stack) : s.words.length = s.depth := Array.length_toList

theorem getElem?_words (s : Stack) (a : Nat) : s.words[a]? = s.cells[a]? := Array.getElem?_toList

theorem exists_peek {offset : Nat} (h : offset < s.depth) :
    ∃ w, s.cells[s.depth - 1 - offset]? = some w ∧ s.peek offset = .ok w := by
  have hlt : s.depth - 1 - offset < s.cells.size := Nat.lt_of_le_of_lt (Nat.sub_le _ _) (Nat.sub_one_lt_of_lt h)
  have hcell := Array.getElem?_eq_getElem hlt
  exact ⟨_, hcell, peek_eq_ok_iff.mpr ⟨h, hcell⟩⟩

theorem peek_eq_read_iff (s : Stack) (offset : Nat) :
    s.peek offset = s.read (s.depth - 1 - offset) ↔ offset < s.depth := by
  constructor
  · intro h
    by_contra hn
    rw [peek_eq_error_iff.mpr ⟨Nat.le_of_not_lt hn, rfl⟩] at h
    cases (read_eq_error_iff.mp h.symm).2
  · intro h
    obtain ⟨w, hcell, hw⟩ := exists_peek h
    rw [hw, read_eq_ok_iff.mpr hcell]

theorem call_eq_answer (s : Stack) (c : Call) :
    ((s.call c).1, (s.call c).2.words) = answer s.capacity s.reserved s.words c := by
  cases c with
  | push w =>
    rw [answer, length_words]
    split
    case isTrue h =>
      have ok : s.push w = .ok () _ := push_eq_ok_iff.mpr ⟨h, rfl⟩
      simp [ok, call, changed, words]
    case isFalse h => simp [push_eq_error_iff.mpr ⟨Nat.le_of_not_lt h, rfl, rfl⟩, call, changed]
  | pop =>
    rw [answer, length_words]
    split
    case isTrue h =>
      have hlast : s.depth - 1 < s.cells.size := Nat.sub_one_lt_of_lt h
      have hback : s.cells.back? = some s.cells[s.depth - 1] := Array.getElem?_eq_getElem hlast
      simp [pop_eq_ok_iff.mpr ⟨h, hback, rfl⟩, call, changed, words, hback]
    case isFalse h => simp [pop_eq_error_iff.mpr ⟨Nat.le_of_not_lt h, rfl, rfl⟩, call, changed]
  | peek offset =>
    rw [answer, length_words]
    split
    case isTrue h =>
      obtain ⟨w, hcell, hw⟩ := exists_peek h
      rw [List.getElem?_reverse (by rwa [length_words]), length_words, getElem?_words, hcell]
      simp [call, hw, Except.map]
    case isFalse h => simp [peek_eq_error_iff.mpr ⟨Nat.le_of_not_lt h, rfl⟩, call, Except.map]
  | read address =>
    rw [answer, length_words]
    split
    case isTrue h =>
      have hcell := Array.getElem?_eq_getElem h
      rw [getElem?_words, hcell]
      simp [call, read_eq_ok_iff.mpr hcell, Except.map]
    case isFalse h => simp [read_eq_error_iff.mpr ⟨Nat.le_of_not_lt h, rfl⟩, call, Except.map, sp]
  | write address w =>
    rw [answer, length_words]
    split
    case isTrue h =>
      have ok : s.write address w = .ok () _ := write_eq_ok_iff.mpr ⟨h, rfl⟩
      simp [ok, call, changed, words]
    case isFalse h => simp [write_eq_error_iff.mpr ⟨Nat.le_of_not_lt h, rfl, rfl⟩, call, changed, sp]
  | grow amount =>
    rw [answer, length_words]
    split
    case isTrue h =>
      have ok : s.grow amount = .ok () _ := grow_eq_ok_iff.mpr ⟨h, rfl⟩
      simp [ok, call, changed, words]
    case isFalse h => simp [grow_eq_error_iff.mpr ⟨Nat.lt_of_not_le h, rfl, rfl⟩, call, changed]
  | ensureRoom count =>
    rw [answer, length_words]
    split
    case isTrue h => simp [ensureRoom_eq_ok_iff.mpr h, call, Except.map]
    case isFalse h => simp [ensureRoom_eq_error_iff.mpr ⟨Nat.lt_of_not_le h, rfl⟩, call, Except.map]
  | truncate length => simp [call, answer, truncate, words, Nat.min_comm]

/-- No operation starts to change the stack before it is sure to succeed. -/
theorem call_of_error (h : (s.call c).1 = .error e) : (s.call c).2 = s := by
  cases c with
  | push w =>
    cases hw : s.push w with
    | ok u t => simp [call, changed, hw] at h
    | error e t => simpa [call, changed, hw] using (push_eq_error_iff.mp hw).2.2
  | pop =>
    cases hw : s.pop with
    | ok w t => simp [call, changed, hw] at h
    | error e t => simpa [call, changed, hw] using (pop_eq_error_iff.mp hw).2.2
  | write address w =>
    cases hw : s.write address w with
    | ok u t => simp [call, changed, hw] at h
    | error e t => simpa [call, changed, hw] using (write_eq_error_iff.mp hw).2.2
  | grow amount =>
    cases hw : s.grow amount with
    | ok u t => simp [call, changed, hw] at h
    | error e t => simpa [call, changed, hw] using (grow_eq_error_iff.mp hw).2.2
  | truncate length => cases h
  | peek | read | ensureRoom => rfl

def Call.store? : Call → Option (Nat × Word)
  | .write address w => some (address, w)
  | _ => none

/-- A call on `s` leaves `t`, made by the operation of the call. One that gives no new stack leaves `s`, and then
nothing is written inside it. -/
inductive Yields (s : Stack) : Call → Stack → Prop where
  | kept (c : Call) (outside : ∀ p ∈ c.store?, s.depth ≤ p.1) : s.Yields c s
  | push (w : Word) (t : Stack) (h : s.push w = .ok () t) : s.Yields (.push w) t
  | pop (w : Word) (t : Stack) (h : s.pop = .ok w t) : s.Yields .pop t
  | write (address : Nat) (w : Word) (t : Stack) (h : s.write address w = .ok () t) : s.Yields (.write address w) t
  | grow (amount : Nat) (t : Stack) (h : s.grow amount = .ok () t) : s.Yields (.grow amount) t
  | truncate (length : Nat) : s.Yields (.truncate length) (s.truncate length)

theorem Yields.unchanged (h : c.store? = none) : s.Yields c s := by
  apply kept
  simp [h]

theorem yields_call (s : Stack) (c : Call) : s.Yields c (s.call c).2 := by
  cases c with
  | push w =>
    cases h : s.push w with
    | ok u t => simpa [call, changed, h] using .push w t h
    | error e t =>
      obtain ⟨-, -, rfl⟩ := push_eq_error_iff.mp h
      simpa [call, changed, h] using .unchanged rfl
  | pop =>
    cases h : s.pop with
    | ok w t => simpa [call, changed, h] using .pop w t h
    | error e t =>
      obtain ⟨-, -, rfl⟩ := pop_eq_error_iff.mp h
      simpa [call, changed, h] using .unchanged rfl
  | write address w =>
    cases h : s.write address w with
    | ok u t => simpa [call, changed, h] using .write address w t h
    | error e t =>
      obtain ⟨outside, -, rfl⟩ := write_eq_error_iff.mp h
      simpa [call, changed, h] using .kept (.write address w) (by simpa [Call.store?] using outside)
  | grow amount =>
    cases h : s.grow amount with
    | ok u t => simpa [call, changed, h] using .grow amount t h
    | error e t =>
      obtain ⟨-, -, rfl⟩ := grow_eq_error_iff.mp h
      simpa [call, changed, h] using .unchanged rfl
  | peek | read | ensureRoom => exact .unchanged rfl
  | truncate length => exact .truncate length

theorem Yields.bounded (h : s.Yields c t) (hs : s.Bounded) : t.Bounded := by
  cases h with
  | kept => exact hs
  | push w t h => exact hs.push h
  | pop w t h => exact hs.pop h
  | write address w t h => exact hs.write h
  | grow amount t h => exact hs.grow h
  | truncate length => exact hs.truncate length

theorem Yields.patched (h : s.Yields c t) (hs : s.Bounded) : s.Patched s.reserved c.store?.toList t := by
  have hr := hs.reserved
  cases h with
  | kept c outside =>
    apply (Agrees.refl s _).patched_of_le
    intro p hp
    exact Nat.le_trans hr (outside p (by simpa using hp))
  | push w t h => exact ((agrees_push h).mono hr).patched
  | pop w t h => exact ((agrees_pop h).mono (depth_pop h).2).patched
  | write address w t h => exact patched_write h _
  | grow amount t h => exact ((agrees_grow h).mono hr).patched
  | truncate length => exact ((agrees_truncate_max s length).mono (Nat.le_max_right length s.reserved)).patched

def after (s : Stack) (cs : List Call) : Stack := cs.foldl (fun t c => (t.call c).2) s

/-- The list that calls leave, of `reserved` zeros at first. -/
def contents (capacity reserved : Nat) (cs : List Call) : List Word :=
  cs.foldl (fun ws c => (answer capacity reserved ws c).2) (List.replicate reserved 0)

/-- The words that calls write and where, the last of them first. -/
def writes (cs : List Call) : List (Nat × Word) := cs.reverse.filterMap Call.store?

theorem writes_concat (cs : List Call) (c : Call) : writes (cs ++ [c]) = c.store?.toList ++ writes cs := by
  cases h : c.store? <;> simp [writes, h]

theorem after_concat (s : Stack) (cs : List Call) (c : Call) :
    s.after (cs ++ [c]) = ((s.after cs).call c).2 := by
  simp [after]

theorem contents_concat (capacity reserved : Nat) (cs : List Call) (c : Call) :
    contents capacity reserved (cs ++ [c]) = (answer capacity reserved (contents capacity reserved cs) c).2 := by
  simp [contents]

theorem Bounded.after (hs : s.Bounded) (cs : List Call) : (s.after cs).Bounded := by
  induction cs using List.reverseRecOn with
  | nil => exact hs
  | append_singleton cs c ih =>
    rw [after_concat]
    exact (yields_call _ c).bounded ih

theorem patched_after (hs : s.Bounded) (cs : List Call) : s.Patched s.reserved (writes cs) (s.after cs) := by
  induction cs using List.reverseRecOn with
  | nil => exact (Agrees.refl s _).patched
  | append_singleton cs c ih =>
    have hc := (yields_call (s.after cs) c).patched (hs.after cs)
    rw [ih.reserved] at hc
    rw [after_concat, writes_concat]
    exact ih.trans hc

theorem words_after (ws : s.words = List.replicate s.reserved 0) (hs : s.Bounded) (cs : List Call) :
    (s.after cs).words = contents s.capacity s.reserved cs := by
  induction cs using List.reverseRecOn with
  | nil => exact ws
  | append_singleton cs c ih =>
    have bounds := patched_after hs cs
    have hc := call_eq_answer (s.after cs) c
    rw [bounds.capacity, bounds.reserved, ih] at hc
    rw [after_concat, contents_concat, ← hc]

/-- How many more cells a call asks room for. -/
def Call.demand? : Call → Option Nat
  | .push _ => some 1
  | .grow amount => some amount
  | .ensureRoom count => some count
  | _ => none

theorem call_eq_ok_iff_of_demand {n : Nat} (h : c.demand? = some n) :
    (s.call c).1 = .ok none ↔ s.depth + n ≤ s.capacity := by
  rw [congrArg Prod.fst (call_eq_answer s c)]
  cases c with
  | push w =>
    obtain rfl := Option.some.inj h
    rw [Nat.add_one_le_iff]
    simp [answer, length_words, apply_ite Prod.fst]
  | grow amount =>
    obtain rfl := Option.some.inj h
    simp [answer, length_words, apply_ite Prod.fst]
  | ensureRoom count =>
    obtain rfl := Option.some.inj h
    simp [answer, length_words, apply_ite Prod.fst]
  | _ => cases h

/-- A stack on which the calls `cs` were made, as the list that they leave. The sum of a depth and a demand is taken in
64 bits, and one that wraps finds no room. An array takes less than `2 ^ 63` bytes, which are `2 ^ 60` words: a capacity
beyond that promises more than memory can hold, and a call that would make the stack so long ends the program, so that
the list is the one of the calls which did not. -/
structure Refines (capacity reserved : Nat) (cs : List Call) (t : Stack) : Prop where
  bounds : t.capacity = capacity ∧ t.reserved = reserved
  depth : reserved ≤ t.depth ∧ t.depth ≤ capacity
  sp : t.sp = t.depth - 1
  words : t.words = contents capacity reserved cs
  answers : ∀ c, ((t.call c).1, (t.call c).2.words) = answer capacity reserved t.words c
  failed : ∀ c e, (t.call c).1 = .error e → (t.call c).2 = t
  pinned : ∀ a < reserved, t.cells[a]? = ((writes cs).lookup a).or (some 0)
  peek : ∀ offset, t.peek offset = t.read (t.depth - 1 - offset) ↔ offset < t.depth
  room : capacity < UInt64.size → ∀ c n, c.demand? = some n →
    ((t.call c).1 = .ok none ↔ t.depth + n < UInt64.size ∧ (t.depth + n) % UInt64.size ≤ capacity)

theorem refines_after_of_zeros (hs : s.Bounded) (ws : s.words = List.replicate s.reserved 0) (cs : List Call) :
    Refines s.capacity s.reserved cs (s.after cs) := by
  have bounds := patched_after hs cs
  have within := hs.after cs
  constructor
  case bounds => exact ⟨bounds.capacity, bounds.reserved⟩
  case depth =>
    rw [← bounds.reserved, ← bounds.capacity]
    exact ⟨within.reserved, within.capacity⟩
  case sp => rfl
  case words => exact words_after ws hs cs
  case answers =>
    intro c
    rw [call_eq_answer, bounds.capacity, bounds.reserved]
  case failed =>
    intro c e h
    exact call_of_error h
  case pinned =>
    intro a ha
    have zero : s.cells[a]? = some 0 := by
      rw [← getElem?_words, ws, List.getElem?_replicate_of_lt ha]
    rw [bounds.cells a ha, zero]
  case peek => exact peek_eq_read_iff _
  case room =>
    intro small c n h
    have hn := call_eq_ok_iff_of_demand (s := s.after cs) h
    rw [bounds.capacity] at hn
    rw [hn]
    constructor
    · intro le
      have lt := Nat.lt_of_le_of_lt le small
      rw [Nat.mod_eq_of_lt lt]
      exact ⟨lt, le⟩
    · rintro ⟨lt, le⟩
      rwa [Nat.mod_eq_of_lt lt] at le

theorem refines_after (capacity reserved : Nat) (cs : List Call) :
    Refines (max capacity reserved) reserved cs ((withReserved capacity reserved).after cs) ∧
      Refines capacity 0 cs ((ofCapacity capacity).after cs) := by
  constructor
  · apply refines_after_of_zeros (s := withReserved capacity reserved)
    · constructor
      · simp [withReserved, depth]
      · simp only [withReserved, depth, Array.size_replicate, Nat.le_max_right]
    · simp [withReserved, words]
  · apply refines_after_of_zeros (s := ofCapacity capacity)
    · constructor <;> simp [ofCapacity, depth]
    · simp [ofCapacity, words]

/-- The depth and the demand sum to a length that 64 bits take for 0. -/
example : Stack.grow ⟨#[9], 4, 0⟩ (UInt64.size - 1) = .error (.stackOverflow 4) ⟨#[9], 4, 0⟩ := rfl

end PCode.Stack
