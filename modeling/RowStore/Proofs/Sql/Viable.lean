import RowStore.Proofs.Sql.Acceptance
import RowStore.Proofs.Sql.Printer

/-!
Where reading a statement fails. The tokens that have been accepted always begin some sentence, and the
token that is blamed is the first with which no sentence goes on.
-/

namespace RowStore.Sql

open Grammar

/-- Tokens with which some sentence begins. -/
def Viable (ts : List Token) : Prop := ∃ rest s, Sentence (ts ++ rest) s

def Mark.token (m : Mark) : Token := ⟨m.kind, String.ofList m.text, ⟨0, 0⟩⟩

section Completion

def someName : Mark := .name ⟨"x", ⟨0, 0⟩⟩

def someValue : Mark := (Literal.number "0").mark

def someRow : List Mark := [.word .VALUES, .leftParen, someValue, .rightParen]

def ListUse.completion : ListUse → List Mark
  | .insert _ => .rightParen :: someRow
  | .select => [.word .FROM, someName]

def Draft.completion : Draft → List Mark
  | .start => [.word .SHOW, .word .TABLES]
  | .whole _ | .afterTable _ | .afterCondition _ _ => []
  | .create | .drop => [.word .DATABASE, someName]
  | .naming _ | .fromTable _ => [someName]
  | .tableName => [someName, .leftParen, someName, typeMark .int, .rightParen]
  | .tableOpen _ => [.leftParen, someName, typeMark .int, .rightParen]
  | .firstColumn _ => [someName, typeMark .int, .rightParen]
  | .columnType _ _ _ => [typeMark .int, .rightParen]
  | .afterColumn _ _ | .afterColumnComma _ _ | .afterValue _ _ => [.rightParen]
  | .showTarget => [.word .TABLES]
  | .insert => .word .INTO :: someName :: someRow
  | .insertTable => someName :: someRow
  | .afterInsertTable _ | .valuesWord _ => someRow
  | .valuesOpen _ => [.leftParen, someValue, .rightParen]
  | .value _ _ => [someValue, .rightParen]
  | .list u => .asterisk :: u.completion
  | .afterAll u | .afterListName u _ => u.completion
  | .listName u _ => someName :: u.completion
  | .condition _ _ => [someName, Comparator.equal.mark, someValue]
  | .comparator _ _ _ => [Comparator.equal.mark, someValue]
  | .comparand _ _ _ _ => [someValue]

theorem Draft.wellQuoted_of_mem_completion {d : Draft} :
    ∀ t ∈ d.completion.map Mark.token, t.WellQuoted := by
  have kinds : (d.completion.all fun m => decide (m.kind ≠ .string)) = true := by
    cases d with
    | list u | afterAll u | listName u | afterListName u => cases u <;> rfl
    | _ => rfl
  rw [List.all_eq_true] at kinds
  rw [List.forall_mem_map]
  exact fun m mem kind => absurd kind (of_decide_eq_true (kinds m mem))

/-- No draft is a dead end. -/
theorem Draft.exists_acceptAll_completion (d : Draft) :
    ∃ d' s, d.acceptAll (d.completion.map Mark.token) = some d' ∧ d'.closed? = some s := by
  cases d with
  | list u | afterAll u | listName u | afterListName u => cases u <;> exact ⟨_, _, rfl, rfl⟩
  | _ => exact ⟨_, _, rfl, rfl⟩

end Completion

section Blame

variable {ts : List Token} {t : Token} {d : Draft}

theorem viable_of_acceptAll (quotes : ∀ t ∈ ts, t.WellQuoted)
    (steps : Draft.start.acceptAll ts = some d) : Viable ts := by
  obtain ⟨d', s, ended, closed⟩ := d.exists_acceptAll_completion
  have phrase : Phrase (ts ++ d.completion.map Mark.token) s := by
    apply (Draft.phrase_iff _).2 ⟨d', by rw [Draft.acceptAll_append steps, ended], closed⟩
    rw [List.forall_mem_append]
    exact ⟨quotes, Draft.wellQuoted_of_mem_completion⟩
  have sentence : Sentence (ts ++ d.completion.map Mark.token ++ [Mark.semicolon.token]) s :=
    .mk phrase rfl
  rw [List.append_assoc] at sentence
  exact ⟨_, s, sentence⟩

theorem not_viable_of_accept (steps : Draft.start.acceptAll ts = some d)
    (refused : d.accept t = none) (open_ : t.kind = .semicolon → d.closed? = none) :
    ¬Viable (ts ++ [t]) := by
  rintro ⟨rest, s, sentence⟩
  generalize eq : ts ++ [t] ++ rest = whole at sentence
  obtain @⟨us, s, semicolon, phrase, kind⟩ := sentence
  obtain ⟨d', read, closed⟩ := Draft.acceptAll_phrase phrase
  rcases rest.eq_nil_or_concat with rfl | ⟨rest, last, rfl⟩
  -- The refused token is the semicolon, but what comes before is no statement.
  · rw [List.append_nil] at eq
    obtain ⟨rfl, same⟩ := List.append_inj' eq rfl
    obtain rfl := List.cons.inj same |>.1
    cases steps.symm.trans read
    rw [open_ kind] at closed
    cases closed
  -- The refused token is one of the statement's.
  · rw [List.concat_eq_append, ← List.append_assoc] at eq
    obtain ⟨rfl, -⟩ := List.append_inj' eq rfl
    rw [List.append_assoc, Draft.acceptAll_append steps, List.singleton_append, Draft.acceptAll,
      refused] at read
    cases read

/-- Why a run of a text of `size` bytes is refused: for its first token with which no sentence goes on,
for its end before its semicolon, or for its first item that is no token. -/
inductive Blames (size : Nat) : List Item → ParseError → Prop
  | token {ts : List Token} {t : Token} {rest : List Item} {expected : Expected} : Viable ts →
      ¬Viable (ts ++ [t]) → Blames size (ts.map .ok ++ .ok t :: rest)
        (.unexpected expected (some (Text.clipped t.text)) t.span.start)
  | ending {ts : List Token} {expected : Expected} : Viable ts → (∀ t ∈ ts, t.kind ≠ .semicolon) →
      Blames size (ts.map .ok) (.unexpected expected none size)
  | lexing {ts : List Token} {e : LexError} {rest : List Item} : Viable ts →
      Blames size (ts.map .ok ++ .error e :: rest) (.lexing e)

theorem blames_of_advance {size : Nat} {i : Item} {e : ParseError}
    (quotes : ∀ t ∈ ts, t.WellQuoted) (steps : Draft.start.acceptAll ts = some d)
    (settled : (Reader.advance d i).1 = some (.error e)) (rest : List Item) :
    Blames size (ts.map .ok ++ i :: rest) e := by
  have viable := viable_of_acceptAll quotes steps
  cases i with
  | error e' =>
    cases settled
    exact .lexing viable
  | ok t =>
    rw [Reader.advance] at settled
    split at settled
    · rename_i kind
      split at settled
      · cases settled
      · rename_i closed
        cases settled
        exact .token viable (not_viable_of_accept steps (d.accept_semicolon kind) fun _ => closed)
    · rename_i kind
      split at settled
      · cases settled
      · rename_i refused
        cases settled
        exact .token viable (not_viable_of_accept steps refused fun h => absurd h kind)

theorem exists_accept_of_advance {i : Item} (h : (Reader.advance d i).1 = none) :
    ∃ t d', i = .ok t ∧ d.accept t = some d' ∧ (Reader.advance d i).2 = .reading d' := by
  cases i with
  | error e => cases h
  | ok t =>
    rw [Reader.advance] at h ⊢
    split at h
    · split at h <;> cases h
    · rename_i kind
      split at h
      · rename_i d' accepted
        exact ⟨t, d', rfl, accepted, by rw [if_neg kind]⟩
      · cases h

theorem blames_of_read {size : Nat} {p : List Item} {e : ParseError}
    (former : ∀ t ∈ ts, t.WellQuoted) (later : ∀ t, .ok t ∈ p → t.WellQuoted)
    (steps : Draft.start.acceptAll ts = some d)
    (h : Reader.read size (.reading d) p = [.error e]) : Blames size (ts.map .ok ++ p) e := by
  -- The induction is on the rest of the run; each token that is accepted joins the others.
  induction p generalizing ts d with
  | nil =>
    cases h
    rw [List.append_nil]
    exact .ending (viable_of_acceptAll former steps) (kind_of_acceptAll steps)
  | cons i p ih =>
    rw [Reader.read, Reader.step] at h
    cases settled : (Reader.advance d i).1 with
    | some x =>
      rw [settled] at h
      obtain ⟨rfl, -⟩ := List.cons.inj h
      exact blames_of_advance former steps settled p
    | none =>
      obtain ⟨t, d', rfl, accepted, next⟩ := exists_accept_of_advance settled
      rw [settled, next] at h
      have joined : ∀ u ∈ ts ++ [t], u.WellQuoted :=
        List.forall_mem_append.2 ⟨former, by simpa using later t List.mem_cons_self⟩
      have steps' : Draft.start.acceptAll (ts ++ [t]) = some d' := by
        rw [Draft.acceptAll_append steps, Draft.acceptAll_cons accepted, Draft.acceptAll]
      have blames := ih joined (fun u mem => later u (List.mem_cons_of_mem _ mem)) steps' h
      rwa [List.map_append, List.append_assoc] at blames

end Blame

/-- A run of a text gives the statement it is a sentence for, or an error. The error is blamed on the
first item that no sentence goes on with, and on the end of the text only where a sentence could still
go on. -/
theorem forall₂_runs_blames (text : String) :
    List.Forall₂ (fun run result =>
        (∀ s, result = .ok s → ∃ ts, run = ts.map .ok ∧ Sentence ts s) ∧
          ∀ e, result = .error e → Blames text.utf8ByteSize run e)
      (runs (scan text)) (parse text) := by
  apply (forall₂_runs text).imp
  rintro run result ⟨member, read⟩
  refine ⟨?_, ?_⟩
  · rintro s rfl
    exact (read_run_eq_ok member).1 read
  · rintro e rfl
    obtain ⟨-, opened⟩ := read_run text.utf8ByteSize member
    have quotes : ∀ t, .ok t ∈ run → t.WellQuoted :=
      fun t mem => text_of_string (mem_of_mem_runs member mem)
    rw [opened] at read
    simpa using blames_of_read (List.forall_mem_nil _) quotes rfl read

example : parse "SELECT a, FROM t; SHOW" =
    [.error (.unexpected (.kind .identifier) (some "FROM") 10),
      .error (.unexpected .databasesOrTables none 22)] := by
  decide +kernel

end RowStore.Sql
