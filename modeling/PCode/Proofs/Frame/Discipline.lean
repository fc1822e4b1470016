import PCode.Proofs.Frame.Live
import PCode.Proofs.Session.Bounds
/-!
Disciplined runs. As long as instructions pop above the links of their frame and store into none of
the links of live frames, the live frames stay in good order.
-/

namespace PCode

open PCode.Frame (globalBase headerSize dynamicLink staticLink returnAddress linkCells Live)

variable {program : Program} {settings : Settings} {log : List Execution} {m : Machine} {c d : Core}
  {i : Instruction}

namespace Core

/-- The bases of the live frames. -/
def frames (c : Core) : List Nat := Frame.chain c.stack.cells c.base

structure Disciplined (c : Core) (i : Instruction) : Prop where
  pops : c.PopsAbove i (c.base + headerSize)
  links : ∀ p, c.store? i = some p → ∀ f ∈ c.frames, f ≠ globalBase → p.1 ∉ linkCells f

theorem disciplined_of_store?_eq_none (pops : c.PopsAbove i (c.base + headerSize)) (h : c.store? i = none) :
    c.Disciplined i where
  pops := pops
  links p hs := by
    rw [h] at hs
    cases hs

theorem Disciplined.next (h : c.Disciplined i) : c.next.Disciplined i := ⟨h.pops, h.links⟩

/-- The frames are in good order and the counter is in the program or just behind it. -/
structure Framed (program : Program) (c : Core) : Prop where
  live : ∃ rest, Live program c.stack (c.base :: rest)
  room : c.base + headerSize ≤ c.stack.depth
  pc : c.pc ≤ program.length

theorem framed_initial (capacity : Nat) : (initial capacity).Framed program where
  live := ⟨[], .global⟩
  room := by simp [initial, Stack.withReserved, Stack.depth, globalBase]
  pc := Nat.zero_le _

theorem Disciplined.lookup_eq_none (h : c.Disciplined i) {f slot : Nat} (hf : f ∈ c.frames)
    (inner : f ≠ globalBase) (hslot : slot < headerSize) : (c.store? i).toList.lookup (f + slot) = none := by
  apply Frame.lookup_linkCell _ hslot
  intro p hp
  exact h.links p (Option.mem_toList.mp hp) f hf inner

theorem Framed.called {level target declaring : Nat} (h : c.Framed program)
    (calls : program.CallsAt c.pc) (inside : target < program.length)
    (walk : Frame.resolve c.stack c.base level = .ok declaring) (hlength : program.length < Word.indexCount)
    (hbase : c.base < Word.indexCount) :
    Framed program ⟨target, c.stack.depth, c.stack.enter c.base declaring (c.pc + 1)⟩ := by
  obtain ⟨rest, live⟩ := h.live
  have declared := live.mem_of_outward List.mem_cons_self (Frame.resolve_eq_ok_iff.mp walk)
  have hdeclaring : declaring < Word.indexCount := Nat.lt_of_le_of_lt (live.le_base declared) hbase
  have hpc : c.pc + 1 < Word.indexCount := by
    obtain ⟨t, _, _, ht, _⟩ := calls
    exact Nat.lt_of_le_of_lt (Program.lt_length_of_get? ht) hlength
  constructor
  · refine ⟨c.base :: rest, ?_⟩
    apply Live.frame h.room
    · exact Frame.link_enter hbase rfl
    · exact Frame.link_enter hdeclaring rfl
    · exact declared
    · exact Frame.link_enter hpc rfl
    · exact Nat.succ_pos c.pc
    · exact calls
    · exact live.of_agrees Stack.agrees_enter h.room
  · exact Nat.le_of_eq Stack.depth_enter.symm
  · exact Nat.le_of_lt inside

theorem Framed.returned {caller next : Nat} (h : c.Framed program) (inner : c.base ≠ globalBase)
    (dynamic : Frame.link c.stack c.base dynamicLink = .ok caller)
    (address : Frame.link c.stack c.base returnAddress = .ok next) :
    Framed program ⟨next, caller, c.stack.truncate c.base⟩ := by
  obtain ⟨rest, live⟩ := h.live
  have hroom := h.room
  generalize hb : c.base = base at *
  cases live with
  | global => exact absurd rfl inner
  | frame below dynamic' _ _ address' positive returns outer =>
    obtain rfl := Except.ok.inj (dynamic'.symm.trans dynamic)
    obtain rfl := Except.ok.inj (address'.symm.trans address)
    refine ⟨⟨_, outer.of_agrees (Stack.agrees_truncate _ _) below⟩, ?_, ?_⟩
    · rw [Stack.depth_truncate]
      have hdepth := Nat.le_trans below (Nat.le_of_add_right_le hroom)
      exact Nat.le_min.mpr ⟨hdepth, Nat.le_trans below (Nat.le_max_left _ _)⟩
    · obtain ⟨t, _, _, ht, _⟩ := returns
      exact Nat.le_of_pred_lt (Program.lt_length_of_get? ht)

theorem Framed.stayed {pc : Nat} {s : Stack} (h : c.Framed program) (hd : c.Disciplined i)
    (place : pc ≤ program.length) (height : c.stack.depth - c.popped i ≤ s.depth)
    (cells : c.stack.Patched (c.stack.depth - c.popped i) (c.store? i).toList s) :
    Framed program ⟨pc, c.base, s⟩ := by
  obtain ⟨rest, live⟩ := h.live
  have hn := hd.pops.le h.room
  refine ⟨⟨rest, live.of_patched cells hn ?_⟩, Nat.le_trans hn height, place⟩
  intro f hf inner slot hslot
  rw [← live.chain_eq] at hf
  exact hd.lookup_eq_none hf inner hslot

theorem Framed.next (h : c.Framed program) (hpc : c.pc < program.length) : c.next.Framed program :=
  ⟨h.live, h.room, hpc⟩

theorem Framed.moves (h : c.Framed program) (hd : c.Disciplined i) {t : Triple}
    (ht : program.get? c.pc = some t) (hi : t.decode = .ok i) (hlength : program.length < Word.indexCount)
    (hbase : c.base < Word.indexCount) (hm : Moves program c.next i d) : d.Framed program := by
  have hpc : c.pc < program.length := Program.lt_length_of_get? ht
  cases hm with
  | called inside walk => exact h.called ⟨t, _, _, ht, hi⟩ inside walk hlength hbase
  | returned inner dynamic _ address => exact h.returned inner dynamic address
  | stayed place height _ cells =>
    apply h.stayed hd _ height cells
    rcases place with rfl | place
    · exact hpc
    · exact Nat.le_of_lt place

theorem Framed.link_ne_error {slot : Nat} {e : Error} (h : c.Framed program) (inner : c.base ≠ globalBase)
    (hslot : slot ∈ [dynamicLink, staticLink, returnAddress]) :
    Frame.link c.stack c.base slot ≠ .error e := by
  obtain ⟨rest, live⟩ := h.live
  obtain ⟨_, _, _, _, dynamic, static, _, _, address, _⟩ := live.links List.mem_cons_self inner
  simp only [List.mem_cons, List.not_mem_nil, or_false] at hslot
  rcases hslot with rfl | rfl | rfl
  · rw [dynamic]; nofun
  · rw [static]; nofun
  · rw [address]; nofun

variable {σ : Type} [Channel σ] {e : Error}

theorem Framed.performs_ret (h : c.Framed program) (channel : σ) :
    ∃ halt d, Session.Performs program (.opr .ret) c channel halt d channel := by
  obtain ⟨pc, base, s⟩ := c
  by_cases hb : base = globalBase
  · exact ⟨_, _, .finish hb⟩
  · obtain ⟨rest, live⟩ := h.live
    obtain ⟨_, _, _, _, dynamic, static, _, _, address, _⟩ := live.links List.mem_cons_self hb
    exact ⟨_, _, .ret hb dynamic static address⟩

theorem Framed.error_ne_invalidLink [LawfulChannel σ] {channel channel' : σ} {a : Nat} {w : Word} (h : c.Framed program)
    (hd : c.Disciplined i) (hf : Session.Fails program i c channel e channel') : e ≠ .invalidLink a w := by
  intro he
  have hk : e.kind = .invalidAddress := congrArg Error.kind he
  cases hf with
  | link inner reading lost => exact h.link_ne_error inner reading lost
  | walk _ _ lost =>
    obtain ⟨rest, live⟩ := h.live
    have hn := hd.pops.le h.room
    have live' := live.of_agrees (Stack.agrees_drop c.stack (c.popped i)) hn
    cases he.symm.trans (live'.climb_eq_error List.mem_cons_self lost)
  | unary _ value => cases hk.symm.trans (Unary.kind_of_eval value)
  | binary _ _ value => cases hk.symm.trans (Binary.kind_of_eval value)
  | sent _ lost => cases hk.symm.trans (LawfulChannel.ofChannel_write lost).kind_eq
  | received _ lost => cases hk.symm.trans (LawfulChannel.ofChannel_read lost).kind_eq
  | _ => cases he

end Core

namespace Machine

def Disciplined (m : Machine) : Prop := ∀ i, m.next? = some i → m.core.Disciplined i

theorem disciplined_of_next? (hi : m.next? = some i) (h : m.core.Disciplined i) : m.Disciplined := by
  intro j hj
  rwa [← Option.some.inj (hi.symm.trans hj)]

theorem Disciplined.framed_step {σ : Type} [Channel σ] {s t : Session σ} {r : Except Fault Machine.State}
    (hd : s.machine.Disciplined) (sized : s.machine.Sized program settings)
    (addressable : s.machine.Addressable) (hbase : s.machine.core.base < Word.indexCount)
    (h : s.machine.core.Framed program) (ht : Session.Stepped s r t) : t.machine.core.Framed program := by
  have hp := sized.program
  rcases ht.core sized.bounded with ⟨-, hc | ⟨hlt, hc⟩⟩ | ⟨i, hi, hm⟩
  · rwa [hc]
  · rw [hc]
    rw [hp] at hlt
    exact h.next hlt
  · obtain ⟨triple, htriple, hdecode⟩ := decode_of_next? hi
    have hlength := addressable.program
    rw [hp] at hm htriple hlength
    exact h.moves (hd i hi) htriple hdecode hlength hbase hm

/-- A disciplined run: lawful channels, machines that memory can hold, and disciplined steps. -/
abbrev Regular : Guard := fun σ _ s => LawfulChannel σ ∧ s.machine.Addressable ∧ s.machine.Disciplined

theorem Reached.framed (h : Reached Regular program settings log m) : m.core.Framed program := by
  induction h using Reached.induct with
  | built m h => exact h.eq_fresh ▸ Core.framed_initial _
  | step σ s log h hp ih =>
    have hbase := h.base_lt fun regular => regular.2.1
    exact hp.2.2.framed_step h.sized hp.2.1 hbase ih (Session.stepped s)
  | reset log m => exact Core.framed_initial _

theorem Disciplined.error_ne_invalidLink {σ : Type} [Channel σ] [LawfulChannel σ] {s t : Session σ}
    {r : Except Fault Machine.State} (hd : s.machine.Disciplined) (sized : s.machine.Sized program settings)
    (h : s.machine.core.Framed program) (ht : Session.Stepped s r t) {fault : Fault}
    (hf : t.machine.fault = some fault) (a : Nat) (w : Word) :
    s.machine.fault = some fault ∨ fault.error ≠ .invalidLink a w := by
  cases ht with
  | halted => exact .inl hf
  | faulted => exact .inl hf
  | unfetched _ fetch snapshot =>
    obtain rfl := Option.some.inj hf
    subst snapshot
    right
    rintro rfl
    rcases error_of_fetch fetch with ⟨_, he⟩ | ⟨_, _, he⟩ | he <;> cases he
  | proceeded | stopped => exact .inl hf
  | failed next performs snapshot =>
    obtain rfl := Option.some.inj hf
    subst snapshot
    have hn : s.machine.core.next.stack.Bounded := sized.bounded
    have hlt := pc_lt_of_next? next
    have fails := (Session.fails_of_perform hn.capacity performs).2
    rw [sized.program] at hlt fails
    exact .inr ((h.next hlt).error_ne_invalidLink (hd _ next).next fails)

theorem Reached.error_ne_invalidLink (h : Reached Regular program settings log m) {fault : Fault}
    (hf : m.fault = some fault) (a : Nat) (w : Word) : fault.error ≠ .invalidLink a w := by
  induction h using Reached.induct with
  | built m h =>
    rw [h.eq_fresh] at hf
    cases hf
  | step σ s log h hp ih =>
    obtain ⟨lawful, -, disciplined⟩ := hp
    rcases disciplined.error_ne_invalidLink h.sized h.framed (Session.stepped s) hf a w with hf | hne
    · exact ih hf
    · exact hne
  | reset log m => cases hf

/-- What holds of the frames of a machine in a disciplined run. -/
structure Orderly (program : Program) (m : Machine) : Prop where
  innermost : m.core.frames.head? = some m.core.base
  outermost : m.core.frames.getLast? = some globalBase
  dynamic : m.core.frames.IsChain fun a b =>
    Frame.link m.core.stack a dynamicLink = .ok b ∧ b + headerSize ≤ a
  room : m.core.base + headerSize ≤ m.core.stack.depth
  static : ∀ f ∈ m.core.frames, f ≠ globalBase →
    ∃ g ∈ m.core.frames, g < f ∧ Frame.link m.core.stack f staticLink = .ok g
  address : ∀ f ∈ m.core.frames, f ≠ globalBase →
    ∃ r, Frame.link m.core.stack f returnAddress = .ok r ∧ 1 ≤ r ∧ r ≤ program.length ∧
      ∃ t level target, program.get? (r - 1) = some t ∧ t.decode = .ok (.cal level target)
  pc : m.core.pc ≤ program.length
  returns : m.next? = some (.opr .ret) →
    ∀ (σ : Type) [Channel σ] (s : Session σ), s.machine = m → ∃ state, s.step.1 = .ok state
  links : ∀ fault a w, m.fault = some fault → fault.error ≠ .invalidLink a w
  resolves : ∃ n, Frame.Outward m.core.stack m.core.base n globalBase ∧
    ∀ level, (∃ f, Frame.resolve m.core.stack m.core.base level = .ok f) ↔ level ≤ n

theorem Reached.orderly (h : Reached Regular program settings log m) : Orderly program m := by
  have framed := h.framed
  obtain ⟨rest, live⟩ := framed.live
  have hc : m.core.frames = m.core.base :: rest := live.chain_eq
  constructor
  case innermost => rw [hc, List.head?_cons]
  case outermost =>
    rw [hc]
    exact live.getLast?_eq
  case dynamic =>
    rw [hc]
    exact live.isChain
  case room => exact framed.room
  case static =>
    rw [hc]
    intro f hf inner
    obtain ⟨_, g, _, _, _, static, hg, hlt, _⟩ := live.links hf inner
    exact ⟨g, hg, hlt, static⟩
  case address =>
    rw [hc]
    intro f hf inner
    obtain ⟨_, _, r, _, _, _, _, _, address, positive, t, level, target, ht, hd⟩ := live.links hf inner
    have hr : r ≤ program.length := Nat.le_of_pred_lt (Program.lt_length_of_get? ht)
    exact ⟨r, address, positive, hr, t, level, target, ht, hd⟩
  case pc => exact framed.pc
  case returns =>
    rintro hi σ _ s rfl
    have hlt := pc_lt_of_next? hi
    rw [h.sized.program] at hlt
    obtain ⟨halt, d, performs⟩ := (framed.next hlt).performs_ret s.channel
    rw [← h.sized.program] at performs
    exact (Session.stepped s).eq_ok_of_performs hi performs
  case links =>
    intro fault a w hf
    exact h.error_ne_invalidLink hf a w
  case resolves =>
    obtain ⟨n, hn⟩ := live.outward List.mem_cons_self
    refine ⟨n, hn, ?_⟩
    intro level
    simp only [Frame.resolve_eq_ok_iff]
    exact hn.exists_iff

def writing : Session QueueChannel :=
  .scripted (.ofProgram (.ofInstructions [.cal 0 2, .sio .halt, .lit 9, .sio .write, .opr .ret])) []

theorem orderly_writing :
    (writing.after 3).machine.core.base = 3 ∧ (writing.after 3).machine.next? = some (.opr .ret) ∧
      Orderly writing.machine.program (writing.after 3).machine := by
  have built : Reached Regular writing.machine.program {} [] writing.machine := .built .ofProgram
  have disciplined (k : Nat) (hk : k < 3) : (writing.after k).machine.Disciplined := by
    match k, hk with
    | 0, _ =>
      refine disciplined_of_next? (i := .cal 0 2) rfl (Core.disciplined_of_store?_eq_none ?_ rfl)
      exact fun a h h' => absurd h (Nat.not_le.mpr h')
    | 1, _ =>
      refine disciplined_of_next? (i := .lit 9) rfl (Core.disciplined_of_store?_eq_none ?_ rfl)
      exact fun a h h' => absurd h (Nat.not_le.mpr h')
    | 2, _ =>
      refine disciplined_of_next? (i := .sio .write) rfl (Core.disciplined_of_store?_eq_none ?_ rfl)
      exact fun a h _ => Nat.le_trans (by decide) h
  have reached := built.after (s := writing) 3 fun k hk => ⟨inferInstance, ?_, disciplined k hk⟩
  · exact ⟨rfl, rfl, reached.orderly⟩
  · match k, hk with
    | 0, _ | 1, _ | 2, _ => exact ⟨by decide, by decide⟩

end Machine
end PCode
