import Mathlib.Logic.ExistsUnique
import RowStore.Proofs.Query.Naive
import RowStore.Proofs.Text.Integer

namespace RowStore

/-- What a comparison says of a stored integer and a literal that writes the integer `m`. -/
def Sql.Comparator.Relates (n m : Int32) (literal : String) : Sql.Comparator → Prop
  | .equal => n = m ∧ literal = toString m.toInt
  | .greater => m < n
  | .less => n < m
  | .greaterEqual => m ≤ n
  | .lessEqual => n ≤ m

instance {n m : Int32} {literal : String} (op : Sql.Comparator) :
    Decidable (op.Relates n m literal) :=
  match op with
  | .equal => inferInstanceAs (Decidable (_ ∧ _))
  | .greater | .less => inferInstanceAs (Decidable (_ < _))
  | .greaterEqual | .lessEqual => inferInstanceAs (Decidable (_ ≤ _))

theorem Sql.Comparator.existsUnique_relates (n m : Int32) {literal : String}
    (plain : literal = toString m.toInt) :
    ∃! op, op ∈ [Sql.Comparator.less, .equal, .greater] ∧ op.Relates n m literal := by
  simp only [List.mem_cons, List.not_mem_nil, or_false]
  rcases Int.lt_trichotomy n.toInt m.toInt with less | equal | greater
  · refine ⟨.less, ⟨.inl rfl, Int32.lt_iff_toInt_lt.2 less⟩, ?_⟩
    rintro _ ⟨rfl | rfl | rfl, relates⟩
    · rfl
    · exact absurd (congrArg Int32.toInt relates.1) (Int.ne_of_lt less)
    · exact absurd (Int32.lt_iff_toInt_lt.1 relates) (Int.not_lt.2 (Int.le_of_lt less))
  · refine ⟨.equal, ⟨.inr (.inl rfl), Int32.toInt_inj.1 equal, plain⟩, ?_⟩
    rintro _ ⟨rfl | rfl | rfl, relates⟩
    · exact absurd equal (Int.ne_of_lt (Int32.lt_iff_toInt_lt.1 relates))
    · rfl
    · exact absurd equal.symm (Int.ne_of_lt (Int32.lt_iff_toInt_lt.1 relates))
  · refine ⟨.greater, ⟨.inr (.inr rfl), Int32.lt_iff_toInt_lt.2 greater⟩, ?_⟩
    rintro _ ⟨rfl | rfl | rfl, relates⟩
    · exact absurd (Int32.lt_iff_toInt_lt.1 relates) (Int.not_lt.2 (Int.le_of_lt greater))
    · exact absurd (congrArg Int32.toInt relates.1).symm (Int.ne_of_lt greater)
    · rfl

namespace Value

def integer? : Value → Option Int32
  | .int n | .date n => some n
  | .varchar _ | .double _ => none

variable {v u : Value} {n m : Int32} {type : DataType} {literal : String}

theorem exists_integer (integral : v.type = .int ∨ v.type = .date) : ∃ n, v.integer? = some n := by
  cases v with
  | int n | date n => exact ⟨n, rfl⟩
  | varchar s | double x => simp [Value.type] at integral

theorem text_of_integer (h : v.integer? = some n) : v.text = toString n.toInt := by
  cases v with
  | int k | date k =>
    cases h
    rfl
  | varchar s | double x => cases h

theorem parseInt32?_of_ofLiteral? (integral : type = .int ∨ type = .date)
    (h : ofLiteral? type literal = some u) :
    ∃ m, u.integer? = some m ∧ Text.parseInt32? literal.toList = some m := by
  rcases integral with rfl | rfl
  all_goals
    obtain ⟨m, read, rfl⟩ := Option.map_eq_some_iff.1 h
    exact ⟨m, rfl, read⟩

theorem compareTexts_integer (stored : v.integer? = some n)
    (read : Text.parseInt32? literal.toList = some m) (op : Sql.Comparator) :
    compareTexts v.text op literal = true ↔ op.Relates n m literal := by
  have left := Text.leadingInt_toString n
  have right := Text.leadingInt_of_parseInt32? read
  rw [text_of_integer stored]
  cases op with
  | equal =>
    have spelled : toString n.toInt = literal → n = m := by
      rintro rfl
      rw [left] at right
      exact Int32.toInt_inj.1 right
    simp only [compareTexts, Sql.Comparator.Relates, beq_iff_eq]
    constructor
    · intro texts
      have value := spelled texts
      exact ⟨value, by rw [← value, texts]⟩
    · rintro ⟨rfl, rfl⟩
      rfl
  | less | greater =>
    simp only [compareTexts, Sql.Comparator.Relates, left, right, decide_eq_true_eq,
      Int32.lt_iff_toInt_lt]
  | lessEqual | greaterEqual =>
    simp only [compareTexts, Sql.Comparator.Relates, left, right, decide_eq_true_eq,
      Int32.le_iff_toInt_le]

end Value

theorem Predicate.evaluate_single {schema : TableSchema} {x : Sql.Identifier} {i : Nat}
    {t : TableFile} {rest : Content} {v : Value} (column : schema.columnIndex? x.name = some i)
    (read : t.firstColumn i rest = .ok v) (op : Sql.Comparator) (l : Sql.Literal) :
    ∃ p, ofFilter schema ⟨⟨x, op, l⟩, []⟩ = .ok p ∧
      p.evaluate t rest = .ok (compareTexts v.text op l.text) := by
  refine ⟨⟨⟨i, op, l.text⟩, []⟩, ?_, ?_⟩
  · simp only [ofFilter, BoundCondition.ofCondition, column, ofLinks]
    rfl
  · simp only [evaluate, BoundCondition.evaluate, read, Except.map, evaluateLinks,
      BoundCondition.holds]

/-- A condition on a column of integers comes out as the comparison of the integers, and equality only
for the plain text. So a literal in plain decimal text is passed by each row in exactly one of `<`, `=`
and `>`. -/
theorem evaluate_integers {type : DataType} (integral : type = .int ∨ type = .date) {l : Sql.Literal}
    {u : Value} (accepted : Value.ofLiteral? type l.text = some u) :
    ∃ m, u.integer? = some m ∧
      (∀ v : Value, v.type = type → ∃ n, v.integer? = some n ∧
        ∀ op, compareTexts v.text op l.text = true ↔ op.Relates n m l.text) ∧
      ∀ (schema : TableSchema) (x : Sql.Identifier) (i : Nat) (t : TableFile) (rest : Content),
        schema.columnIndex? x.name = some i → schema.types[i]? = some type →
        t.codec = .ofSchema schema → schema.rowWidth ≤ rest.bytes.length →
        ∃ v n, t.firstColumn i rest = .ok v ∧ v.integer? = some n ∧
          (∀ op, ∃ p, Predicate.ofFilter schema ⟨⟨x, op, l⟩, []⟩ = .ok p ∧
            p.evaluate t rest = .ok (decide (op.Relates n m l.text))) ∧
          (l.text = toString m.toInt →
            ∃! op, op ∈ [Sql.Comparator.less, .equal, .greater] ∧
              ∃ p, Predicate.ofFilter schema ⟨⟨x, op, l⟩, []⟩ = .ok p ∧
                p.evaluate t rest = .ok true) := by
  obtain ⟨m, value, read⟩ := Value.parseInt32?_of_ofLiteral? integral accepted
  refine ⟨m, value, ?_, ?_⟩
  · rintro v rfl
    obtain ⟨n, stored⟩ := Value.exists_integer integral
    exact ⟨n, stored, Value.compareTexts_integer stored read⟩
  · intro schema x i t rest column declared codec full
    obtain ⟨v, cell, rfl⟩ : ∃ v, (rowAt schema rest)[i]? = some v ∧ v.type = type := by
      refine ⟨_, (RowCodec.getElem?_values _ _ _).trans (congrArg _ declared), ?_⟩
      exact Value.type_ofSlot _ _
    have column_ : t.firstColumn i rest = .ok v := by
      apply t.firstColumn_eq
      · rw [codec]
        exact full
      · rw [codec]
        exact cell
    obtain ⟨n, stored⟩ := Value.exists_integer integral
    have outcome (op : Sql.Comparator) : ∃ p, Predicate.ofFilter schema ⟨⟨x, op, l⟩, []⟩ = .ok p ∧
        p.evaluate t rest = .ok (decide (op.Relates n m l.text)) := by
      obtain ⟨p, bound, result⟩ := Predicate.evaluate_single column column_ op l
      refine ⟨p, bound, ?_⟩
      rw [result, Except.ok.injEq, Bool.eq_iff_iff, decide_eq_true_eq]
      exact Value.compareTexts_integer stored read op
    have passes (op : Sql.Comparator) : (∃ p, Predicate.ofFilter schema ⟨⟨x, op, l⟩, []⟩ = .ok p ∧
        p.evaluate t rest = .ok true) ↔ op.Relates n m l.text := by
      obtain ⟨p, bound, result⟩ := outcome op
      simp [bound, result]
    refine ⟨v, n, column_, stored, outcome, ?_⟩
    intro plain
    simp only [passes]
    exact Sql.Comparator.existsUnique_relates n m plain

theorem evaluate_integers_least :
    let schema : TableSchema := ⟨"t", [⟨"b", .varchar⟩, ⟨"a", .int⟩]⟩
    let row : Content := .ofBytes (List.replicate 64 0 ++ Bytes.ofInt32 (-2147483648))
    let t : TableFile := ⟨⟨"/r/d/t.table"⟩, .ofSchema schema, 1⟩
    let ask := fun op => Predicate.ofFilter schema ⟨⟨⟨"a", ⟨0, 0⟩⟩, op, .number "-2147483648"⟩, []⟩
    (∃ m : Int32, m = -7 ∧
      (compareTexts (Value.date (-8)).text .less "-000000000000000000000000007" = true ↔ -8 < m) ∧
      (compareTexts (Value.date (-7)).text .equal "-000000000000000000000000007" = true ↔
        -7 = m ∧ "-000000000000000000000000007" = toString m.toInt)) ∧
    ∃! op, op ∈ [Sql.Comparator.less, .equal, .greater] ∧
      ∃ p, ask op = .ok p ∧ p.evaluate t row = .ok true := by
  intro schema row t ask
  have signed : Value.ofLiteral? .date "-000000000000000000000000007" = some (.date (-7)) := by
    decide +kernel
  have least : Value.ofLiteral? .int "-2147483648" = some (.int (-2147483648)) := by decide +kernel
  constructor
  · obtain ⟨m, value, compares, -⟩ :=
      evaluate_integers (.inr rfl) (l := .string "-000000000000000000000000007") signed
    cases value
    obtain ⟨_, stored, eight⟩ := compares (.date (-8)) rfl
    cases stored
    obtain ⟨_, stored, seven⟩ := compares (.date (-7)) rfl
    cases stored
    exact ⟨_, rfl, eight .less, seven .equal⟩
  · obtain ⟨m, value, -, rows⟩ := evaluate_integers (.inl rfl) (l := .number "-2147483648") least
    cases value
    obtain ⟨v, n, -, -, -, once⟩ := rows schema ⟨"a", ⟨0, 0⟩⟩ 1 t row rfl rfl rfl (by decide +kernel)
    exact once (by decide +kernel)

end RowStore
