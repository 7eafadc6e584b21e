import Mathlib.Data.Nat.ModEq
import Refute.Trace.Fingerprint

namespace Refute

/-- The number that these bytes spell, highest first. -/
def ofBigEndian (bs : List UInt8) : Nat :=
  bs.foldl (fun n b => n * 256 + b.toNat) 0

@[simp] theorem length_bigEndian (count n : Nat) : (bigEndian count n).length = count := by
  induction count generalizing n with
  | zero => rfl
  | succ count ih => rw [bigEndian, List.length_append, ih, List.length_singleton]

theorem ofBigEndian_concat (bs : List UInt8) (b : UInt8) :
    ofBigEndian (bs ++ [b]) = ofBigEndian bs * 256 + b.toNat :=
  List.foldl_append

theorem ofBigEndian_bigEndian (count n : Nat) :
    ofBigEndian (bigEndian count n) = n % 256 ^ count := by
  induction count generalizing n with
  | zero => exact (Nat.mod_one n).symm
  | succ count ih =>
    have low : (UInt8.ofNat n).toNat = n % 256 := UInt8.toNat_ofNat'
    rw [bigEndian, ofBigEndian_concat, ih, low, Nat.pow_succ', Nat.mod_mul]
    omega

namespace Word

/-- The word that these bytes spell. -/
def ofBytes (bs : List UInt8) : Word :=
  BitVec.ofNat 64 (ofBigEndian bs)

@[simp] theorem length_bytes (w : Word) : w.bytes.length = 8 :=
  length_bigEndian ..

@[simp] theorem ofBytes_bytes (w : Word) : ofBytes w.bytes = w := by
  apply BitVec.eq_of_toNat_eq
  have small : w.toNat < 256 ^ 8 := w.isLt
  rw [ofBytes, bytes, ofBigEndian_bigEndian, Nat.mod_eq_of_lt small, BitVec.toNat_ofNat,
    Nat.mod_eq_of_lt w.isLt]

/-- Cuts the bytes into groups of eight and reads each as a signed number. -/
def readAll (bs : List UInt8) : List Int :=
  if bs = [] then [] else (ofBytes (bs.take 8)).toInt :: readAll (bs.drop 8)
termination_by bs.length
decreasing_by
  have := List.length_pos_iff.mpr ‹_›
  rw [List.length_drop]
  omega

theorem readAll_nil : readAll [] = [] := by
  rw [readAll, if_pos rfl]

theorem readAll_bytes_append (w : Word) (bs : List UInt8) :
    readAll (w.bytes ++ bs) = w.toInt :: readAll bs := by
  have full : w.bytes ++ bs ≠ [] := by
    intro h
    have := congrArg List.length h
    rw [List.length_append, length_bytes, List.length_nil] at this
    omega
  rw [readAll, if_neg full, List.take_left' (length_bytes w), List.drop_left' (length_bytes w),
    ofBytes_bytes]

end Word

namespace Trace

/-- Every value is a signed word. -/
def Encodable (t : Trace) : Prop :=
  ∀ v ∈ t.values, Word.least ≤ v ∧ v ≤ Word.greatest

instance (t : Trace) : Decidable t.Encodable :=
  inferInstanceAs (Decidable (∀ v ∈ t.values, _))

theorem encodable_cons {d : Draw} {t : Trace} :
    Encodable (d :: t) ↔ (Word.least ≤ d.value ∧ d.value ≤ Word.greatest) ∧ t.Encodable :=
  List.forall_mem_cons

/-- What a trace that can be encoded is encoded as. -/
def encoding (t : Trace) : List UInt8 :=
  t.values.flatMap fun v => Word.bytes (BitVec.ofInt 64 v)

theorem encoding_cons (d : Draw) (t : Trace) :
    encoding (d :: t) = Word.bytes (BitVec.ofInt 64 d.value) ++ t.encoding :=
  rfl

theorem bytes_cons (d : Draw) (t : Trace) :
    bytes (d :: t) = do return (← d.bytes) ++ (← t.bytes) := by
  rw [bytes]
  cases d.bytes with
  | error fault => rfl
  | ok head => cases t.bytes <;> rfl

theorem bytes_of_encodable {t : Trace} (h : t.Encodable) : t.bytes = .ok t.encoding := by
  induction t with
  | nil => rfl
  | cons d t ih =>
    obtain ⟨hd, ht⟩ := encodable_cons.mp h
    have hb : d.bytes = .ok (Word.bytes (BitVec.ofInt 64 d.value)) := if_pos hd
    rw [bytes_cons, hb, ih ht, encoding_cons]
    rfl

/-- The first value that is no signed word is the one complained about. -/
theorem bytes_of_not_encodable {t : Trace} (h : ¬ t.Encodable) :
    ∃ v ∈ t.values, ¬ (Word.least ≤ v ∧ v ≤ Word.greatest) ∧ t.bytes = .error (.unencodable v) := by
  induction t with
  | nil => exact absurd (List.forall_mem_nil _) h
  | cons d t ih =>
    by_cases hd : Word.least ≤ d.value ∧ d.value ≤ Word.greatest
    · have hb : d.bytes = .ok (Word.bytes (BitVec.ofInt 64 d.value)) := if_pos hd
      obtain ⟨v, hv, far, ht⟩ := ih fun ht => h (encodable_cons.mpr ⟨hd, ht⟩)
      refine ⟨v, List.mem_cons_of_mem _ hv, far, ?_⟩
      rw [bytes_cons, hb, ht]
      rfl
    · have hb : d.bytes = .error (.unencodable d.value) := if_neg hd
      refine ⟨d.value, List.mem_cons_self, hd, ?_⟩
      rw [bytes_cons, hb]
      rfl

theorem readAll_encoding {t : Trace} (h : t.Encodable) : Word.readAll t.encoding = t.values := by
  induction t with
  | nil => exact Word.readAll_nil
  | cons d t ih =>
    obtain ⟨⟨low, high⟩, ht⟩ := encodable_cons.mp h
    calc Word.readAll (encoding (d :: t))
        = Word.wrap d.value :: Word.readAll (encoding t) := Word.readAll_bytes_append ..
      _ = d.value :: values t := by rw [Word.wrap_of_mem low high, ih ht]

theorem length_encoding (t : Trace) : t.encoding.length = 8 * t.length := by
  induction t with
  | nil => rfl
  | cons d t ih =>
    rw [encoding_cons, List.length_append, Word.length_bytes, ih, List.length_cons]
    omega

theorem bytes_append (t u : Trace) :
    (t ++ u).bytes = do return (← t.bytes) ++ (← u.bytes) := by
  induction t with
  | nil =>
    calc u.bytes = u.bytes >>= pure := (bind_pure _).symm
      _ = _ := rfl
  | cons d t ih =>
    rw [List.cons_append, bytes_cons, ih, bytes_cons]
    simp only [bind_assoc, pure_bind, List.append_assoc]

/-- Traces that can be encoded have equal bytes when their values are equal, and only then. -/
theorem bytes_inj {t u : Trace} (ht : t.Encodable) (hu : u.Encodable) :
    t.bytes = u.bytes ↔ t.values = u.values := by
  rw [bytes_of_encodable ht, bytes_of_encodable hu]
  constructor
  · intro h
    have same : t.encoding = u.encoding := Except.ok.inj h
    rw [← readAll_encoding ht, ← readAll_encoding hu, same]
  · intro h
    rw [encoding, encoding, h]

/-- Reading the bytes of a trace gives its values back, as long as all of them are signed words;
otherwise there are no bytes. Traces one after the other are encoded one after the other. -/
theorem bytes_read_back (t u : Trace) :
    (t.Encodable ↔ ∃ bs, t.bytes = .ok bs ∧ Word.readAll bs = t.values ∧
      bs.length = 8 * t.length) ∧
    (¬ t.Encodable ↔ ∃ fault, t.bytes = .error fault ∧ fault.kind = "struct.error") ∧
    (t.Encodable → u.Encodable → (t.bytes = u.bytes ↔ t.values = u.values)) ∧
    (t ++ u).bytes = do return (← t.bytes) ++ (← u.bytes) := by
  have reads (h : t.Encodable) : ∃ bs, t.bytes = .ok bs ∧ Word.readAll bs = t.values ∧
      bs.length = 8 * t.length :=
    ⟨t.encoding, bytes_of_encodable h, readAll_encoding h, length_encoding t⟩
  have fails (h : ¬ t.Encodable) : ∃ fault, t.bytes = .error fault ∧
      fault.kind = "struct.error" := by
    obtain ⟨v, -, -, hv⟩ := bytes_of_not_encodable h
    exact ⟨_, hv, rfl⟩
  refine ⟨⟨reads, ?_⟩, ⟨fails, ?_⟩, bytes_inj, bytes_append t u⟩
  · rintro ⟨bs, hbs, -⟩
    by_contra h
    obtain ⟨fault, hfault, -⟩ := fails h
    cases hbs.symm.trans hfault
  · rintro ⟨fault, hfault, -⟩ h
    cases (bytes_of_encodable h).symm.trans hfault

/-- The limits and minus one among them come back, whatever the bounds they were drawn from; the
number after the greatest has no bytes. -/
theorem limits_read_back :
    (∃ bs, bytes [⟨.any, Word.least⟩, ⟨.any, -1⟩, ⟨.any, Word.greatest⟩] = .ok bs ∧
      Word.readAll bs = [Word.least, -1, Word.greatest] ∧ bs.length = 24) ∧
    (∃ fault, bytes [⟨.any, 0⟩, ⟨.any, Word.greatest + 1⟩] = .error fault ∧
      fault.kind = "struct.error") ∧
    bytes [⟨.any, 1⟩] = bytes [⟨.bit, 1⟩] := by
  refine ⟨?_, ?_, ?_⟩
  · exact (bytes_read_back [⟨.any, Word.least⟩, ⟨.any, -1⟩, ⟨.any, Word.greatest⟩] []).1.mp
      (by decide)
  · exact (bytes_read_back [⟨.any, 0⟩, ⟨.any, Word.greatest + 1⟩] []).2.1.mp (by decide)
  · exact ((bytes_read_back [⟨.any, 1⟩] [⟨.bit, 1⟩]).2.2.1 (by decide) (by decide)).mpr rfl

end Trace

end Refute
