import PCode.Proofs.Execution.Failure
/-!
More capacity. An instruction that does not overflow the stack does the same on a stack of the same cells
that may hold more of them.
-/

namespace PCode

variable {capacity : Nat}

namespace Stack

def withCapacity (capacity : Nat) (s : Stack) : Stack := { s with capacity }

/-- What `f` does to a stack it does with a greater capacity too, unless it overflows. -/
structure Widens (capacity : Nat) {α : Type} (f : Stack → EStateM.Result Error Stack α) : Prop where
  ok : ∀ {s a t}, f s = .ok a t → s.capacity ≤ capacity →
    t.capacity = s.capacity ∧ f (s.withCapacity capacity) = .ok a (t.withCapacity capacity)
  error : ∀ {s e t}, f s = .error e t → e.kind ≠ .stackOverflow →
    f (s.withCapacity capacity) = .error e (t.withCapacity capacity)

theorem widens_push (w : Word) : Widens capacity fun s => s.push w where
  ok := by
    intro s u t h le
    obtain ⟨room, rfl⟩ := push_eq_ok_iff.mp h
    exact ⟨rfl, push_eq_ok_iff.mpr ⟨Nat.lt_of_lt_of_le room le, rfl⟩⟩
  error := by
    intro s e t h he
    obtain ⟨-, rfl, -⟩ := push_eq_error_iff.mp h
    exact absurd rfl he

theorem widens_grow (amount : Nat) : Widens capacity fun s => s.grow amount where
  ok := by
    intro s u t h le
    obtain ⟨room, rfl⟩ := grow_eq_ok_iff.mp h
    exact ⟨rfl, grow_eq_ok_iff.mpr ⟨Nat.le_trans room le, rfl⟩⟩
  error := by
    intro s e t h he
    obtain ⟨-, rfl, -⟩ := grow_eq_error_iff.mp h
    exact absurd rfl he

theorem widens_write (address : Nat) (w : Word) : Widens capacity fun s => s.write address w where
  ok := by
    intro s u t h _
    obtain ⟨inside, rfl⟩ := write_eq_ok_iff.mp h
    exact ⟨rfl, write_eq_ok_iff.mpr ⟨inside, rfl⟩⟩
  error := by
    intro s e t h _
    obtain ⟨outside, rfl, rfl⟩ := write_eq_error_iff.mp h
    exact write_eq_error_iff.mpr ⟨outside, rfl, rfl⟩

theorem widens_pop : Widens capacity pop where
  ok := by
    intro s w t h _
    obtain ⟨few, top, rfl⟩ := pop_eq_ok_iff.mp h
    exact ⟨rfl, pop_eq_ok_iff.mpr ⟨few, top, rfl⟩⟩
  error := by
    intro s e t h _
    obtain ⟨few, rfl, rfl⟩ := pop_eq_error_iff.mp h
    exact pop_eq_error_iff.mpr ⟨few, rfl, rfl⟩

end Stack

namespace Frame

theorem climb_withCapacity (s : Stack) (exhausted : Error) (level base : Nat) :
    climb (s.withCapacity capacity) exhausted level base = climb s exhausted level base := by
  induction level generalizing base with
  | zero => rfl
  | succ level ih =>
    have hl : link (s.withCapacity capacity) base staticLink = link s base staticLink := rfl
    simp only [climb, hl, ih]

end Frame

namespace Core

def withCapacity (capacity : Nat) (c : Core) : Core := { c with stack := c.stack.withCapacity capacity }

/-- Unless it overflows, `x` does the same with a capacity that is at least as great. -/
structure Widens (capacity : Nat) {α : Type} (x : Exec α) : Prop where
  ok : ∀ {c a d}, x c = .ok a d → c.stack.capacity ≤ capacity →
    d.stack.capacity = c.stack.capacity ∧ x (c.withCapacity capacity) = .ok a (d.withCapacity capacity)
  error : ∀ {c e d}, x c = .error e d → c.stack.capacity ≤ capacity → e.kind ≠ .stackOverflow →
    x (c.withCapacity capacity) = .error e (d.withCapacity capacity)

section

variable {α β : Type} {x y : Exec α} {f : α → Exec β}

theorem widens_pure (a : α) : Widens capacity (pure a : Exec α) where
  ok := by
    intro c b d h le
    obtain ⟨rfl, rfl⟩ := pure_eq_ok_iff.mp h
    exact ⟨rfl, rfl⟩
  error h := absurd h pure_ne_error

theorem Widens.bind (hx : Widens capacity x) (hf : ∀ a, Widens capacity (f a)) : Widens capacity (x >>= f) where
  ok := by
    intro c b d h le
    obtain ⟨a, c', hc, hd⟩ := bind_eq_ok_iff.mp h
    obtain ⟨kept, wide⟩ := hx.ok hc le
    obtain ⟨kept', wide'⟩ := (hf a).ok hd (kept ▸ le)
    exact ⟨kept'.trans kept, bind_eq_ok_iff.mpr ⟨a, _, wide, wide'⟩⟩
  error := by
    intro c e d h le he
    rcases bind_eq_error_iff.mp h with hc | ⟨a, c', hc, hd⟩
    · exact bind_eq_error_iff.mpr (.inl (hx.error hc le he))
    · obtain ⟨kept, wide⟩ := hx.ok hc le
      have wide' := (hf a).error hd (kept ▸ le) he
      exact bind_eq_error_iff.mpr (.inr ⟨a, _, wide, wide'⟩)

theorem Widens.ite {p : Prop} [Decidable p] (hx : Widens capacity x) (hy : Widens capacity y) :
    Widens capacity (if p then x else y) := by
  split
  · exact hx
  · exact hy

theorem widens_get_bind {f : Core → Exec β} (blind : ∀ c, f (c.withCapacity capacity) = f c)
    (hf : ∀ c, Widens capacity (f c)) : Widens capacity (get >>= f) where
  ok := by
    intro c b d h le
    have wide := (hf c).ok h le
    rw [← blind] at wide
    exact wide
  error := by
    intro c e d h le he
    have wide := (hf c).error h le he
    rw [← blind] at wide
    exact wide

theorem widens_modify {f : Core → Core}
    (wide : ∀ c, f (c.withCapacity capacity) = (f c).withCapacity capacity)
    (kept : ∀ c, (f c).stack.capacity = c.stack.capacity) : Widens capacity (modify f : Exec Unit) where
  ok := by
    intro c u d h le
    obtain rfl := modify_eq_ok_iff.mp h
    exact ⟨kept c, modify_eq_ok_iff.mpr (wide c)⟩
  error h := absurd h modify_ne_error

theorem widens_ask {f : Core → Except Error α} (blind : ∀ c, f (c.withCapacity capacity) = f c) :
    Widens capacity (ask f) where
  ok := by
    intro c a d h le
    obtain ⟨hf, rfl⟩ := ask_eq_ok_iff.mp h
    exact ⟨rfl, ask_eq_ok_iff.mpr ⟨(blind c).trans hf, rfl⟩⟩
  error := by
    intro c e d h le he
    obtain ⟨hf, rfl⟩ := ask_eq_error_iff.mp h
    exact ask_eq_error_iff.mpr ⟨(blind c).trans hf, rfl⟩

theorem widens_update {f : Stack → EStateM.Result Error Stack α} (hf : Stack.Widens capacity f) :
    Widens capacity (update f) where
  ok := by
    intro c a d h le
    obtain ⟨t, ht, rfl⟩ := update_eq_ok_iff.mp h
    obtain ⟨kept, wide⟩ := hf.ok ht le
    exact ⟨kept, update_eq_ok_iff.mpr ⟨_, wide, rfl⟩⟩
  error := by
    intro c e d h le he
    obtain ⟨t, ht, rfl⟩ := update_eq_error_iff.mp h
    exact update_eq_error_iff.mpr ⟨_, hf.error ht he, rfl⟩

theorem widens_pop : Widens capacity pop := widens_update Stack.widens_pop

theorem widens_ensureRoom (count : Nat) : Widens capacity (ensureRoom count) where
  ok := by
    intro c u d h le
    obtain ⟨room, rfl⟩ := ask_eq_ok_iff.mp h
    have wide := Nat.le_trans (Stack.ensureRoom_eq_ok_iff.mp room) le
    exact ⟨rfl, ask_eq_ok_iff.mpr ⟨Stack.ensureRoom_eq_ok_iff.mpr wide, rfl⟩⟩
  error := by
    intro c e d h le he
    obtain ⟨full, -⟩ := ask_eq_error_iff.mp h
    obtain ⟨-, rfl⟩ := Stack.ensureRoom_eq_error_iff.mp full
    exact absurd rfl he

theorem widens_push (w : Word) : Widens capacity (push w) := widens_update (Stack.widens_push w)

theorem widens_resolve (level : Nat) : Widens capacity (resolve level) :=
  widens_ask fun c => Frame.climb_withCapacity c.stack _ level c.base

theorem widens_jump (program : Program) (target : Nat) : Widens capacity (jump program target) := by
  apply Widens.bind
  · exact widens_ask fun _ => rfl
  · intro _
    exact widens_modify (fun _ => rfl) fun _ => rfl

theorem widens_call (program : Program) (level target : Nat) : Widens capacity (call program level target) := by
  apply Widens.bind
  · exact widens_ask fun _ => rfl
  intro _
  apply (widens_resolve level).bind
  intro declaring
  apply (widens_ensureRoom Frame.headerSize).bind
  intro _
  apply widens_get_bind
  · intro _
    rfl
  rintro ⟨next, caller, _⟩
  apply (widens_push _).bind
  intro _
  apply (widens_push _).bind
  intro _
  apply (widens_push _).bind
  intro _
  exact widens_modify (fun _ => rfl) fun _ => rfl

theorem widens_ret : Widens capacity ret := by
  apply widens_get_bind
  · intro _
    rfl
  intro c
  apply Widens.ite
  · exact widens_pure _
  have links (slot : Nat) : Widens capacity (link c.base slot) := widens_ask fun _ => rfl
  apply (links Frame.dynamicLink).bind
  intro caller
  apply (links Frame.staticLink).bind
  intro _
  apply (links Frame.returnAddress).bind
  intro next
  apply Widens.bind
  · exact widens_modify (fun _ => rfl) fun _ => rfl
  · intro _
    exact widens_pure _

theorem widens_execute (program : Program) (i : Instruction) : Widens capacity (execute program i) := by
  have proceeding {x : Exec Unit} (hx : Widens capacity x) :
      Widens capacity (do x; return Request.proceed) := hx.bind fun _ => widens_pure _
  have asking {x : Exec Word} (hx : Widens capacity x) :
      Widens capacity (do push (← x); return Request.proceed) := hx.bind fun w => proceeding (widens_push w)
  cases i with
  | lit w => exact proceeding (widens_push w)
  | opr op =>
    cases op with
    | ret => exact widens_ret
    | unary op => exact widens_pop.bind fun x => asking (widens_ask fun _ => rfl)
    | binary op =>
      exact widens_pop.bind fun y => widens_pop.bind fun x => asking (widens_ask fun _ => rfl)
  | lod level offset =>
    exact (widens_resolve level).bind fun base => asking (widens_ask fun _ => rfl)
  | sto level offset =>
    exact widens_pop.bind fun w => (widens_resolve level).bind fun base =>
      proceeding (widens_update (Stack.widens_write _ w))
  | cal level target => exact proceeding (widens_call program level target)
  | inc amount => exact proceeding (widens_update (Stack.widens_grow amount))
  | jmp target => exact proceeding (widens_jump program target)
  | jpc target =>
    apply widens_pop.bind
    intro w
    apply Widens.ite
    · exact proceeding (widens_jump program target)
    · exact widens_pure _
  | sio service =>
    cases service with
    | write => exact widens_pop.bind fun w => widens_pure _
    | read => exact (widens_ensureRoom 1).bind fun _ => widens_pure _
    | halt => exact widens_pure _
  | lda address => exact asking (widens_ask fun _ => rfl)
  | sta address => exact widens_pop.bind fun w => proceeding (widens_update (Stack.widens_write address w))

end
end Core

namespace Session

variable {σ : Type} [Channel σ] {program : Program} {channel channel' : σ} {i : Instruction} {c d : Core}
  {e : Error} {halt : Option HaltReason} {r : Request}

theorem serve_withCapacity (h : serve r c channel = (.ok halt d, channel')) (le : c.stack.capacity ≤ capacity) :
    serve r (c.withCapacity capacity) channel = (.ok halt (d.withCapacity capacity), channel') := by
  cases r with
  | proceed | halt =>
    cases h
    rfl
  | emit w =>
    obtain ⟨sent, rfl, rfl⟩ := serve_emit_eq_ok_iff.mp h
    exact serve_emit_eq_ok_iff.mpr ⟨sent, rfl, rfl⟩
  | accept =>
    obtain ⟨w, t, received, room, rfl, rfl⟩ := serve_accept_eq_ok_iff.mp h
    have wide := ((Stack.widens_push w).ok room le).2
    exact serve_accept_eq_ok_iff.mpr ⟨w, _, received, wide, rfl, rfl⟩

theorem serve_withCapacity_of_error (capacity : Nat) (h : serve r c channel = (.error e d, channel'))
    (he : e.kind ≠ .stackOverflow) :
    serve r (c.withCapacity capacity) channel = (.error e (d.withCapacity capacity), channel') := by
  cases r with
  | proceed | halt => cases h
  | emit w =>
    obtain ⟨lost, rfl⟩ := serve_emit_eq_error_iff.mp h
    exact serve_emit_eq_error_iff.mpr ⟨lost, rfl⟩
  | accept =>
    rcases serve_accept_eq_error_iff.mp h with ⟨lost, rfl⟩ | ⟨w, t, -, full, -⟩
    · exact serve_accept_eq_error_iff.mpr (.inl ⟨lost, rfl⟩)
    · obtain ⟨-, rfl, -⟩ := Stack.push_eq_error_iff.mp full
      exact absurd rfl he

theorem perform_withCapacity (h : perform program i c channel = (.ok halt d, channel'))
    (le : c.stack.capacity ≤ capacity) :
    perform program i (c.withCapacity capacity) channel = (.ok halt (d.withCapacity capacity), channel') := by
  obtain ⟨r, c', executed, served⟩ := perform_eq_ok_iff.mp h
  obtain ⟨kept, wide⟩ := (Core.widens_execute program i).ok executed le
  have wide' := serve_withCapacity served (kept ▸ le)
  exact perform_eq_ok_iff.mpr ⟨r, _, wide, wide'⟩

theorem perform_withCapacity_of_error (h : perform program i c channel = (.error e d, channel'))
    (le : c.stack.capacity ≤ capacity) (he : e.kind ≠ .stackOverflow) :
    perform program i (c.withCapacity capacity) channel = (.error e (d.withCapacity capacity), channel') := by
  rcases perform_eq_error_iff.mp h with ⟨failed, rfl⟩ | ⟨r, c', executed, served⟩
  · have wide := (Core.widens_execute program i).error failed le he
    exact perform_eq_error_iff.mpr (.inl ⟨wide, rfl⟩)
  · have wide := ((Core.widens_execute program i).ok executed le).2
    have wide' := serve_withCapacity_of_error capacity served he
    exact perform_eq_error_iff.mpr (.inr ⟨r, _, wide, wide'⟩)

end Session
end PCode
