import PCode.Instruction.Encoding
import Mathlib.Data.Set.Function
/-!
Triples and instructions, both ways. A triple decodes exactly when its code is assigned and the code
takes its operands, and then encoding gives back all of the triple that the code uses. An instruction
comes back from its triple with every index cut to the greatest word.
-/

namespace PCode

def OpCode.Takes (level address : Word) : OpCode → Prop
  | .lit => True
  | .opr => 0 ≤ address ∧ address ≤ 13
  | .sio => 1 ≤ address ∧ address ≤ 3
  | .lod | .sto | .cal => 0 ≤ level ∧ 0 ≤ address
  | .inc | .jmp | .jpc | .lda | .sta => 0 ≤ address

def Triple.Legal (t : Triple) : Prop := ∃ op : OpCode, op.value = t.op ∧ op.Takes t.level t.address

/-- The triple without the level, unless its code is one of those that use the level. -/
def Triple.canonical (t : Triple) : Triple :=
  if t.op ∈ [OpCode.lod.value, OpCode.sto.value, OpCode.cal.value] then t else { t with level := 0 }

namespace Instruction

/-- The operands that count something, and so need not fit a word. -/
def indices : Instruction → List Nat
  | lod level offset => [level, offset]
  | sto level offset => [level, offset]
  | cal level target => [level, target]
  | inc amount => [amount]
  | jmp target => [target]
  | jpc target => [target]
  | lda address => [address]
  | sta address => [address]
  | lit _ => []
  | opr _ => []
  | sio _ => []

def mapIndices (f : Nat → Nat) : Instruction → Instruction
  | lod level offset => lod (f level) (f offset)
  | sto level offset => sto (f level) (f offset)
  | cal level target => cal (f level) (f target)
  | inc amount => inc (f amount)
  | jmp target => jmp (f target)
  | jpc target => jpc (f target)
  | lda address => lda (f address)
  | sta address => sta (f address)
  | lit value => lit value
  | opr op => opr op
  | sio service => sio service

def Fits (i : Instruction) : Prop := ∀ n ∈ i.indices, n ≤ 0x7fffffffffffffff

def clamped (i : Instruction) : Instruction := i.mapIndices fun n => min n 0x7fffffffffffffff

theorem mapIndices_eq_self_iff {f : Nat → Nat} {i : Instruction} :
    i.mapIndices f = i ↔ ∀ n ∈ i.indices, f n = n := by
  cases i <;> simp [mapIndices, indices]

theorem clamped_eq_self_iff {i : Instruction} : i.clamped = i ↔ i.Fits := by
  simp only [clamped, mapIndices_eq_self_iff, Fits, inf_eq_left]

end Instruction

variable {t : Triple} {i : Instruction} {op : OpCode} {v : UInt8} {w : Word} {n : Nat} {field : String}

theorem OpCode.decode_eq_ok_iff : OpCode.decode v = .ok op ↔ op.value = v := by
  rw [← ofValue?_eq_some_iff, decode]
  cases ofValue? v <;> simp

theorem Operation.decode_eq_ok_iff {op : Operation} : Operation.decode w = .ok op ↔ op.selector = w := by
  rw [← ofSelector?_eq_some_iff, decode]
  cases ofSelector? w <;> simp

theorem Service.decode_eq_ok_iff {s : Service} : Service.decode w = .ok s ↔ s.selector = w := by
  rw [← ofSelector?_eq_some_iff, decode]
  cases ofSelector? w <;> simp

theorem Word.toInt_eq_iff : w.toInt = n ↔ n ≤ 0x7fffffffffffffff ∧ Word.saturating n = w := by
  rw [← Int64.toInt_inj, Word.toInt_saturating, Word.greatest]
  have hg := Word.le_greatest w
  rw [Word.greatest] at hg
  omega

theorem Word.nonneg_iff : 0 ≤ w ↔ ∃ n : Nat, w.toInt = n := by
  rw [Int64.le_iff_toInt_le]
  exact ⟨Int.eq_ofNat_of_zero_le, fun ⟨n, hn⟩ => hn ▸ Int.natCast_nonneg n⟩

theorem Triple.index_eq_ok_iff : index op field w = .ok n ↔ w.toInt = n := by
  rw [← Word.toIndex?_eq_some_iff, index]
  cases Word.toIndex? w <;> simp

theorem Triple.indices_eq_ok_iff {make : Nat → Nat → Instruction} :
    t.indices op make = .ok i ↔
      ∃ m n : Nat, t.level.toInt = m ∧ t.address.toInt = n ∧ make m n = i := by
  constructor
  · intro h
    obtain ⟨m, hm, h⟩ := bind_eq_ok.mp h
    obtain ⟨n, hn, h⟩ := bind_eq_ok.mp h
    exact ⟨m, n, index_eq_ok_iff.mp hm, index_eq_ok_iff.mp hn, Except.ok.inj h⟩
  · rintro ⟨m, n, hm, hn, rfl⟩
    simp only [indices, index_eq_ok_iff.mpr hm, index_eq_ok_iff.mpr hn]
    rfl

theorem OpCode.exists_value_iff : (∃ op : OpCode, op.value = v) ↔ 1 ≤ v ∧ v ≤ 12 ∧ v ≠ 7 := by
  constructor
  · rintro ⟨op, rfl⟩
    cases op <;> decide
  · rintro ⟨h₁, h, h₇⟩
    have table : ∀ n < 13, 1 ≤ n → n ≠ 7 → ∃ op ∈ all, op.value = UInt8.ofNat n := by decide
    have hlt : v.toNat < 13 := Nat.lt_succ_of_le (UInt8.le_iff_toNat_le.mp h)
    have hne : v.toNat ≠ 7 := fun he => h₇ (UInt8.toNat_inj.mp he)
    obtain ⟨op, -, hop⟩ := table v.toNat hlt (UInt8.le_iff_toNat_le.mp h₁) hne
    exact ⟨op, hop.trans UInt8.ofNat_toNat⟩

theorem Operation.exists_selector_iff : (∃ op : Operation, op.selector = w) ↔ 0 ≤ w ∧ w ≤ 13 := by
  constructor
  · rintro ⟨_ | op | op, rfl⟩
    · decide
    · cases op <;> decide
    · cases op <;> decide
  · rintro ⟨h₀, h⟩
    have table : ∀ n < 14, ∃ op ∈ all, op.selector = Word.saturating n := by decide
    obtain ⟨n, hn⟩ := Word.nonneg_iff.mp h₀
    rw [Int64.le_iff_toInt_le, hn] at h
    have hlt : n < 14 := Int.ofNat_lt.mp (Int.lt_add_one_of_le h)
    obtain ⟨op, -, hop⟩ := table n hlt
    exact ⟨op, hop.trans (Word.toInt_eq_iff.mp hn).2⟩

theorem Service.exists_selector_iff : (∃ s : Service, s.selector = w) ↔ 1 ≤ w ∧ w ≤ 3 := by
  constructor
  · rintro ⟨s, rfl⟩
    cases s <;> decide
  · rintro ⟨h₁, h⟩
    have table : ∀ n < 4, 1 ≤ n → ∃ s ∈ all, s.selector = Word.saturating n := by decide
    obtain ⟨n, hn⟩ := Word.nonneg_iff.mp (Int64.le_trans (by decide) h₁)
    rw [Int64.le_iff_toInt_le, hn] at h₁ h
    have hlt : n < 4 := Int.ofNat_lt.mp (Int.lt_add_one_of_le h)
    obtain ⟨s, -, hs⟩ := table n hlt (Int.ofNat_le.mp h₁)
    exact ⟨s, hs.trans (Word.toInt_eq_iff.mp hn).2⟩

namespace Triple

theorem canonical_of_value (h : op.value = t.op) :
    t.canonical = ⟨op.value, if op ∈ [.lod, .sto, .cal] then t.level else 0, t.address⟩ := by
  obtain ⟨v, level, address⟩ := t
  obtain rfl : op.value = v := h
  cases op <;> rfl

theorem decode_canonical (t : Triple) : t.canonical.decode = t.decode := by
  cases hop : OpCode.ofValue? t.op with
  | none =>
    have hc : t.canonical.op = t.op := by
      unfold canonical
      split <;> rfl
    simp only [decode, OpCode.decode, hc, hop]
    rfl
  | some op =>
    have hv := OpCode.ofValue?_eq_some_iff.mp hop
    rw [canonical_of_value hv]
    obtain ⟨v, level, address⟩ := t
    obtain rfl : op.value = v := hv
    cases op <;> rfl

theorem encode_of_decode (h : t.decode = .ok i) : t.Legal ∧ i.Fits ∧ i.encode = t.canonical := by
  obtain ⟨op, hop, h⟩ := bind_eq_ok.mp h
  have hv := OpCode.decode_eq_ok_iff.mp hop
  rw [canonical_of_value hv]
  -- In each case the code takes the operands, the indices fit, and they are stored as they were.
  cases op with
  | lit =>
    obtain rfl := Except.ok.inj h
    exact ⟨⟨_, hv, trivial⟩, nofun, rfl⟩
  | opr =>
    obtain ⟨o, ho, h⟩ := bind_eq_ok.mp h
    obtain rfl := Except.ok.inj h
    rw [Operation.decode_eq_ok_iff] at ho
    refine ⟨⟨_, hv, Operation.exists_selector_iff.mp ⟨o, ho⟩⟩, nofun, ?_⟩
    rw [← ho]
    rfl
  | sio =>
    obtain ⟨s, hs, h⟩ := bind_eq_ok.mp h
    obtain rfl := Except.ok.inj h
    rw [Service.decode_eq_ok_iff] at hs
    refine ⟨⟨_, hv, Service.exists_selector_iff.mp ⟨s, hs⟩⟩, nofun, ?_⟩
    rw [← hs]
    rfl
  | lod | sto | cal =>
    obtain ⟨m, n, hm, hn, rfl⟩ := indices_eq_ok_iff.mp h
    obtain ⟨fm, hl⟩ := Word.toInt_eq_iff.mp hm
    obtain ⟨fn, ha⟩ := Word.toInt_eq_iff.mp hn
    refine ⟨⟨_, hv, Word.nonneg_iff.mpr ⟨m, hm⟩, Word.nonneg_iff.mpr ⟨n, hn⟩⟩, ?_, ?_⟩
    · simp [Instruction.Fits, Instruction.indices, fm, fn]
    · rw [← hl, ← ha]
      rfl
  | inc | jmp | jpc | lda | sta =>
    obtain ⟨n, hn, h⟩ := bind_eq_ok.mp h
    obtain rfl := Except.ok.inj h
    rw [index_eq_ok_iff] at hn
    obtain ⟨fn, ha⟩ := Word.toInt_eq_iff.mp hn
    refine ⟨⟨_, hv, Word.nonneg_iff.mpr ⟨n, hn⟩⟩, ?_, ?_⟩
    · simp [Instruction.Fits, Instruction.indices, fn]
    · rw [← ha]
      rfl

theorem exists_decode_of_legal (h : t.Legal) : ∃ i, t.decode = .ok i := by
  obtain ⟨op, hv, ht⟩ := h
  simp only [decode, bind_eq_ok, OpCode.decode_eq_ok_iff]
  cases op with
  | lit => exact ⟨_, _, hv, rfl⟩
  | opr =>
    obtain ⟨o, ho⟩ := Operation.exists_selector_iff.mpr ht
    exact ⟨_, _, hv, bind_eq_ok.mpr ⟨o, Operation.decode_eq_ok_iff.mpr ho, rfl⟩⟩
  | sio =>
    obtain ⟨s, hs⟩ := Service.exists_selector_iff.mpr ht
    exact ⟨_, _, hv, bind_eq_ok.mpr ⟨s, Service.decode_eq_ok_iff.mpr hs, rfl⟩⟩
  | lod | sto | cal =>
    obtain ⟨m, hm⟩ := Word.nonneg_iff.mp ht.1
    obtain ⟨n, hn⟩ := Word.nonneg_iff.mp ht.2
    exact ⟨_, _, hv, indices_eq_ok_iff.mpr ⟨m, n, hm, hn, rfl⟩⟩
  | inc | jmp | jpc | lda | sta =>
    obtain ⟨n, hn⟩ := Word.nonneg_iff.mp ht
    exact ⟨_, _, hv, bind_eq_ok.mpr ⟨n, index_eq_ok_iff.mpr hn, rfl⟩⟩

end Triple

theorem Instruction.decode_encode (i : Instruction) : i.encode.decode = .ok i.clamped := by
  have cut (n : Nat) : (Word.saturating n).toInt = (min n 0x7fffffffffffffff : Nat) := by
    rw [Word.toInt_saturating, Word.greatest]
    omega
  rw [Triple.decode, bind_eq_ok]
  refine ⟨i.opcode, OpCode.decode_eq_ok_iff.mpr rfl, ?_⟩
  cases i with
  | lit value => rfl
  | opr op => exact bind_eq_ok.mpr ⟨op, Operation.decode_eq_ok_iff.mpr rfl, rfl⟩
  | sio service => exact bind_eq_ok.mpr ⟨service, Service.decode_eq_ok_iff.mpr rfl, rfl⟩
  | lod m n | sto m n | cal m n => exact Triple.indices_eq_ok_iff.mpr ⟨_, _, cut m, cut n, rfl⟩
  | inc n | jmp n | jpc n | lda n | sta n =>
    exact bind_eq_ok.mpr ⟨_, Triple.index_eq_ok_iff.mpr (cut n), rfl⟩

theorem Instruction.decode_encode_eq_self_iff : i.encode.decode = .ok i ↔ i.Fits := by
  rw [decode_encode, Except.ok.injEq, clamped_eq_self_iff]

theorem Triple.decode_eq_ok_iff : t.decode = .ok i ↔ i.Fits ∧ i.encode = t.canonical := by
  constructor
  · intro h
    exact (encode_of_decode h).2
  · rintro ⟨fits, h⟩
    rw [← decode_canonical, ← h]
    exact Instruction.decode_encode_eq_self_iff.mpr fits

theorem Instruction.injOn_encode : Set.InjOn encode {i | i.Fits} := by
  intro i hi j hj h
  have hd := decode_encode_eq_self_iff.mpr hi
  rw [h, decode_encode_eq_self_iff.mpr hj] at hd
  exact (Except.ok.inj hd).symm

/-- Decoding and encoding lose nothing but what a triple does not use and a word cannot hold. -/
structure Codec (decode : Triple → Except Error Instruction) (encode : Instruction → Triple) : Prop where
  assigned : ∀ v, (∃ op : OpCode, op.value = v) ↔ 1 ≤ v ∧ v ≤ 12 ∧ v ≠ 7
  accepted : ∀ t, (∃ i, decode t = .ok i) ↔ t.Legal
  stored : ∀ t i, decode t = .ok i ↔ i.Fits ∧ encode i = t.canonical
  again : ∀ t i, decode t = .ok i → decode (encode i) = .ok i
  cut : ∀ i, decode (encode i) = .ok i.clamped
  lossless : ∀ i, decode (encode i) = .ok i ↔ i.Fits
  injective : Set.InjOn encode {i | i.Fits}

theorem Triple.codec : Codec Triple.decode Instruction.encode where
  assigned _ := OpCode.exists_value_iff
  accepted _ := ⟨fun ⟨_, h⟩ => (encode_of_decode h).1, exists_decode_of_legal⟩
  stored _ _ := decode_eq_ok_iff
  again _ _ h := Instruction.decode_encode_eq_self_iff.mpr (decode_eq_ok_iff.mp h).1
  cut := Instruction.decode_encode
  lossless _ := Instruction.decode_encode_eq_self_iff
  injective := Instruction.injOn_encode

end PCode
