import PCode.Proofs.Frame.Walk
import PCode.Proofs.Session.Bounds
/-!
Lexical scope. The frames that a procedure finds by its static links are those that its caller finds
from the declaring frame on, each one link further out.
-/

namespace PCode

open PCode.Frame (globalBase headerSize staticLink returnAddress Outward)

variable {program : Program} {settings : Settings} {log : List Execution} {m m₁ : Machine} {c : Core}
  {s t : Stack} {level target n f offset caller declaring next : Nat}

namespace Frame

theorem Outward.enter (h : Outward s declaring n f) (hdeclaring : declaring < Word.indexCount)
    (inner : s.depth ≠ globalBase) (ha : (s.enter caller declaring next).Agrees (s.depth + returnAddress) t) :
    Outward t s.depth (n + 1) f := by
  have hcell := ha.cells (s.depth + staticLink) (Nat.lt_succ_self _)
  have static : link t s.depth staticLink = .ok declaring := link_of_cell hcell (link_enter hdeclaring rfl)
  have outer := Stack.agrees_enter.trans (ha.mono (Nat.le_add_right s.depth returnAddress))
  exact .out inner static (h.of_agrees outer)

end Frame

namespace Core

theorem execute_lod (h : Frame.resolve c.stack c.base level = .ok f) :
    execute program (.lod level offset) c = execute program (.lda (f + offset)) c := by
  simp only [execute, resolve, bind, EStateM.bind, ask, h]

theorem execute_sto (h : ∀ w t, c.stack.pop = .ok w t → Frame.resolve t c.base level = .ok f) :
    execute program (.sto level offset) c = execute program (.sta (f + offset)) c := by
  rcases hp : c.stack.pop with ⟨w, t⟩ | ⟨e, t⟩
  · simp only [execute, resolve, bind, EStateM.bind, pop, update, ask, hp, h w t hp]
  · simp only [execute, bind, EStateM.bind, pop, update, hp]

/-- The body of a procedure that has left its static link and everything below its frame alone. -/
structure Within (callee c : Core) : Prop where
  base : c.base = callee.base
  depth : callee.base + headerSize ≤ c.stack.depth
  cells : callee.stack.Agrees (callee.base + returnAddress) c.stack

/-- What `callee` finds of the frames that `caller` finds from `level` links out. -/
structure Nested (program : Program) (level : Nat) (caller callee : Core) : Prop where
  own : Frame.resolve callee.stack callee.base 0 = .ok callee.base
  base : callee.base = caller.stack.depth ∧ headerSize ≤ callee.base
  found : ∀ n f, Frame.resolve caller.stack caller.base (level + n) = .ok f →
    Frame.resolve callee.stack callee.base (n + 1) = .ok f
  exhausted : ∀ n l b,
    Frame.resolve caller.stack caller.base (level + n) = .error (.staticChainExhausted l b) →
      Frame.resolve callee.stack callee.base (n + 1) = .error (.staticChainExhausted (n + 1) callee.base)
  cells : ∀ n f offset, Frame.resolve caller.stack caller.base (level + n) = .ok f →
    execute program (.lod (level + n) offset) caller = execute program (.lda (f + offset)) caller ∧
      ∀ c, callee.Within c →
        execute program (.lod (n + 1) offset) c = execute program (.lda (f + offset)) c ∧
          execute program (.sto (n + 1) offset) c = execute program (.sta (f + offset)) c

end Core

namespace Machine

theorem Reached.nested (reached : Reached (fun _ _ s => s.machine.Addressable) program settings log m)
    (call : m.Executes (.cal level target) m₁) : m.core.Nested program level m₁.core := by
  have hpos := reached.sized.header_le
  have hbase : m.core.base < Word.indexCount := reached.base_lt fun h => h
  have inner : m.core.stack.depth ≠ globalBase := Nat.ne_of_gt (Nat.lt_of_lt_of_le (Nat.succ_pos 2) hpos)
  obtain ⟨declaring, walk, h₁⟩ := call.enters
  have out := Frame.resolve_eq_ok_iff.mp walk
  -- Beyond the declaring frame the two walks are one, and no store of the body reaches its links.
  have shift {n f : Nat} {t : Stack}
      (ht : m₁.core.stack.Agrees (m₁.core.base + returnAddress) t)
      (h : Outward m.core.stack m.core.base (level + n) f) : Outward t m₁.core.base (n + 1) f := by
    obtain ⟨g, hg, h⟩ := Frame.outward_add_iff.mp h
    obtain rfl := out.unique hg
    rw [h₁] at ht ⊢
    exact h.enter (out.lt hbase) inner ht
  have own := Stack.Agrees.refl m₁.core.stack (m₁.core.base + returnAddress)
  constructor
  case own => rfl
  case base =>
    rw [h₁]
    exact ⟨rfl, hpos⟩
  case found =>
    intro n f h
    rw [Frame.resolve_eq_ok_iff] at h ⊢
    exact shift own h
  case exhausted =>
    intro n l b h
    rw [Frame.resolve_eq_exhausted_iff] at h ⊢
    obtain ⟨-, k, hk, h⟩ := h
    have hle : level ≤ k := h.exists_iff.mp ⟨declaring, out⟩
    obtain ⟨j, rfl⟩ := Nat.exists_eq_add_of_le hle
    exact ⟨⟨rfl, rfl⟩, j + 1, by omega, shift own h⟩
  case cells =>
    intro n f offset h
    refine ⟨Core.execute_lod h, ?_⟩
    intro c hc
    rw [Frame.resolve_eq_ok_iff] at h
    constructor
    · apply Core.execute_lod
      rw [Frame.resolve_eq_ok_iff, hc.base]
      exact shift hc.cells h
    · apply Core.execute_sto
      intro w t hp
      have hd := Stack.depth_pop hp
      have hdepth := hc.depth
      have hle : m₁.core.base + returnAddress ≤ t.depth := by
        simp only [headerSize, returnAddress] at *
        omega
      rw [Frame.resolve_eq_ok_iff, hc.base]
      exact shift (hc.cells.trans ((Stack.agrees_pop hp).mono hle)) h

/-- Two procedures deep, about to call a sibling of the inner one. -/
def nesting : Session QueueChannel :=
  (Session.scripted (.ofProgram (.ofInstructions
    [.cal 0 2, .sio .halt, .cal 0 4, .opr .ret, .cal 1 6, .opr .ret, .lod 2 0, .opr .ret])) []).after 2

theorem nested_nesting :
    nesting.machine.core.base = 6 ∧ (nesting.after 1).machine.core.base = 9 ∧
      Frame.resolve (nesting.after 1).machine.core.stack 9 2 = .ok 0 ∧
      Frame.resolve (nesting.after 1).machine.core.stack 9 3 = .error (.staticChainExhausted 3 9) ∧
      nesting.machine.core.Nested nesting.machine.program 1 (nesting.after 1).machine.core := by
  have built : Reached (fun _ _ _ => True) nesting.machine.program {} [] (.ofProgram nesting.machine.program) :=
    .built .ofProgram
  have h := built.after (s := .scripted _ []) 2 fun _ _ => trivial
  have reached := h.of_small (by decide) (by decide)
  have call : nesting.machine.Executes (.cal 1 6) (nesting.after 1).machine := executes_of_step rfl rfl
  have nested := Reached.nested reached call
  exact ⟨rfl, rfl, nested.found 1 0 rfl, nested.exhausted 2 3 6 rfl, nested⟩

end Machine
end PCode
