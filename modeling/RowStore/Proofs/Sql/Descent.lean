import RowStore.Proofs.Sql.Lexeme
import RowStore.Proofs.Sql.Tracking
import RowStore.Sql.Parse

/-!
The parser and the reader agree: what is parsed of a text is what is read from its items. Each function
of the parser goes from one draft to another one, and a failed statement is left where the reader leaves
it, because a parser knows whether it failed at a semicolon.
-/

namespace RowStore.Sql

open Parsing

variable {size : Nat}

def Words : List Keyword → List Item → Prop
  | [] => Without []
  | w :: ws => Opening (.keyword w) (Words ws)

/-- A statement is to be read that starts with these words. -/
abbrev Starts (size : Nat) (ws : List Keyword) : Claim := Goes size .start (Words ws)

section Ddl

theorem tracks_createDatabase :
    Tracks size (Starts size [.CREATE, .DATABASE]) createDatabase (Done size) :=
  (tracks_opening (g := .create) fun t kind => by simp [Draft.accept, kind]).bind fun _ =>
  (tracks_opening (g := .naming .createDatabase) fun t kind => by
    simp [Draft.accept, kind]).bind fun _ =>
  (tracks_identifier rfl rfl fun _ _ => rfl).bind fun _ =>
  (tracks_semicolon rfl rfl fun _ _ => rfl).bind fun _ => .pure

variable {name : Identifier} {columns : List ColumnDefinition} {R : Claim} {n : Nat}

theorem tracks_columnDefinition
    (entry : Tracks size R identifier fun x => Goes size (.columnType name columns x) (Without [])) :
    Tracks size (Within (n + 1) R) columnDefinition fun c =>
      Within n (Goes size (.afterColumn name (columns ++ [c])) (Without [])) :=
  entry.within.bind fun _ =>
  (tracks_accept_within rfl rfl fun _ _ => rfl).bind fun _ => .pure

theorem tracks_columnDefinitions
    (entry : Tracks size R identifier fun x => Goes size (.columnType name columns x) (Without [])) :
    Tracks size (Within n R) (columnDefinitions n) fun cs =>
      Goes size (.whole (.createTable name (columns ++ cs))) (Without []) := by
  induction n generalizing columns R with
  | zero => exact fun _ _ _ _ claim => absurd claim.1 (Nat.not_lt_zero _)
  | succ n ih =>
    refine (tracks_columnDefinition entry).bind fun c => ?_
    have rest {d : Draft} {ks : List Kind}
        (close : ∀ t, t.kind = .rightParen →
          d.accept t = some (.whole (.createTable name (columns ++ [c]))))
        (again : Tracks size (Goes size d (Without (.rightParen :: ks))) identifier
          fun x => Goes size (.columnType name (columns ++ [c]) x) (Without [])) :
        Tracks size (Within n (Goes size d (Without ks)))
          (do if ← tryMatch .rightParen then return [c] else return c :: (← columnDefinitions n))
          fun cs => Goes size (.whole (.createTable name (columns ++ cs))) (Without []) := by
      refine (tracks_tryMatch close).within.bind fun closed => ?_
      cases closed with
      | true => exact .of_bounded .pure
      | false =>
        refine (ih again).bind fun cs => Tracks.pure.of_imp fun _ _ claim => ?_
        rwa [List.append_assoc] at claim
    refine (tracks_tryMatch (g := .afterColumnComma name (columns ++ [c]))
      fun t kind => by simp [Draft.accept, kind]).within.bind fun comma => ?_
    -- With a comma or without one, a parenthesis may come next or the name of another column.
    cases comma with
    | true =>
      refine rest (fun t kind => by simp [Draft.accept, kind])
        (tracks_identifier rfl rfl fun t other => ?_)
      simp only [Draft.accept]
      split <;> simp_all
    | false =>
      refine rest (fun t kind => by simp [Draft.accept, kind])
        (tracks_identifier rfl rfl fun t other => ?_)
      simp only [Draft.accept]
      split <;> simp_all

theorem tracks_createTable : Tracks size (Starts size [.CREATE, .TABLE]) createTable (Done size) :=
  (tracks_opening (g := .create) fun t kind => by simp [Draft.accept, kind]).bind fun _ =>
  (tracks_opening (g := .tableName) fun t kind => by simp [Draft.accept, kind]).bind fun _ =>
  (tracks_identifier rfl rfl fun _ _ => rfl).bind fun _ =>
  (tracks_mustMatch rfl rfl fun _ _ => rfl).bind fun _ =>
  (tracks_rounds _).bind fun _ =>
  (tracks_columnDefinitions (tracks_identifier rfl rfl fun _ _ => rfl)).bind fun _ =>
  (tracks_semicolon rfl rfl fun _ _ => rfl).bind fun _ => .pure

theorem tracks_dropped :
    Tracks size (Goes size .drop (Without [])) (matchToken .databaseOrTable dropped?)
      fun make items out => ∃ u, (NameUse.statement · u) = make ∧
        Goes size (.naming u) (Without []) items out := by
  refine tracks_matchToken rfl fun t rest _ => ?_
  cases found : dropped? t with
  | some make =>
    rw [dropped?] at found
    split at found <;> cases found
    · rename_i kind
      have accept : Draft.drop.accept t = some (.naming .dropDatabase) := by
        simp [Draft.accept, kind]
      exact ⟨.dropDatabase, rfl, without_nil rest, read_of_accept accept rest⟩
    · rename_i kind
      have accept : Draft.drop.accept t = some (.naming .dropTable) := by
        simp [Draft.accept, kind]
      exact ⟨.dropTable, rfl, without_nil rest, read_of_accept accept rest⟩
  | none =>
    have refuse : Draft.drop.accept t = none := by
      rw [dropped?] at found
      rw [Draft.accept]
      split at found <;> simp_all
    exact Reader.refuses_of_open rfl refuse

theorem tracks_drop : Tracks size (Starts size [.DROP]) drop (Done size) := by
  refine (tracks_opening (g := .drop) fun t kind => by simp [Draft.accept, kind]).bind fun _ =>
    tracks_dropped.bind fun make => ?_
  rintro p items out faces ⟨u, rfl, claim⟩
  exact ((tracks_identifier rfl rfl fun _ _ => rfl).bind fun _ =>
    (tracks_semicolon rfl rfl fun _ _ => rfl).bind fun _ => .pure) faces claim

end Ddl

theorem tracks_useDatabase : Tracks size (Starts size [.USE]) useDatabase (Done size) :=
  (tracks_opening (g := .naming .useDatabase) fun t kind => by
    simp [Draft.accept, kind]).bind fun _ =>
  (tracks_identifier rfl rfl fun _ _ => rfl).bind fun _ =>
  (tracks_semicolon rfl rfl fun _ _ => rfl).bind fun _ => .pure

theorem tracks_showNames : Tracks size (Starts size [.SHOW]) showNames (Done size) := by
  refine (tracks_opening (g := .showTarget) fun t kind => by simp [Draft.accept, kind]).bind fun _ => ?_
  refine (tracks_accept rfl rfl fun t _ => ?_).bind fun target =>
    (tracks_semicolon (d := .whole (.showNames target)) rfl rfl fun _ _ => rfl).bind fun _ => .pure
  simp only [Draft.accept, shown?]
  split <;> simp [*]

section Lists

def Listed (size : Nat) (u : ListUse) : Columns → Claim
  | .all => Goes size (.afterAll u) (Without [])
  | .named names => Goes size (.afterListName u names) (Without [.comma])

theorem tracks_columnList (u : ListUse) :
    Tracks size (Goes size (.list u) (Without [])) columnList (Listed size u) := by
  refine tracks_ifMatch (g := .afterAll u) (fun t kind => by simp [Draft.accept, kind]) .pure ?_
  refine (tracks_commaSeparated (.listName u) (.afterListName u)
    (tracks_identifier rfl rfl fun t other => ?_) (fun as t kind => by simp [Draft.accept, kind])
    fun as => tracks_identifier rfl rfl fun _ _ => rfl).bind fun names => .pure
  simp only [Draft.accept]
  split <;> simp_all

theorem tracks_closing (u : ListUse) (columns : Columns) :
    Tracks size (Listed size u columns) (mustMatch u.closing)
      fun _ => Goes size (u.next columns) (Without []) := by
  cases columns with
  | all => exact tracks_mustMatch rfl rfl fun _ _ => rfl
  | named names =>
    refine tracks_mustMatch rfl rfl fun t other => ?_
    exact if_neg (by simpa using other)

end Lists

section Insert

def Named (size : Nat) (table : Identifier) : Option Columns → Claim
  | none => Goes size (.afterInsertTable table) (Without [.leftParen])
  | some columns => Goes size (.valuesWord ⟨table, some columns⟩) (Without [])

theorem tracks_insertColumns (table : Identifier) :
    Tracks size (Goes size (.afterInsertTable table) (Without [])) insertColumns (Named size table) :=
  tracks_ifMatch (g := .list (.insert table)) (fun t kind => by simp [Draft.accept, kind])
    ((tracks_columnList (.insert table)).bind fun columns =>
      (tracks_closing (.insert table) columns).bind fun _ => .pure) .pure

theorem tracks_valuesWord (table : Identifier) (columns : Option Columns) :
    Tracks size (Named size table columns) (mustMatch (.keyword .VALUES))
      fun _ => Goes size (.valuesOpen ⟨table, columns⟩) (Without []) := by
  cases columns with
  | some columns => exact tracks_mustMatch rfl rfl fun _ _ => rfl
  | none =>
    refine tracks_mustMatch rfl rfl fun t other => ?_
    simp only [Draft.accept, Token.goesOn]
    split <;> simp_all

theorem tracks_values (i : Insertion) :
    Tracks size (Goes size (.value i []) (Without [])) (commaSeparated literal)
      fun values => Goes size (.afterValue i values) (Without [.comma]) :=
  tracks_commaSeparated (.value i) (.afterValue i) (tracks_accept rfl rfl fun _ _ => rfl)
    (fun as t kind => by simp [Draft.accept, kind]) fun as => tracks_accept rfl rfl fun _ _ => rfl

theorem tracks_insert : Tracks size (Starts size [.INSERT]) insert (Done size) := by
  refine (tracks_opening (g := .insert) fun t kind => by simp [Draft.accept, kind]).bind fun _ =>
    (tracks_mustMatch rfl rfl fun _ _ => rfl).bind fun _ =>
    (tracks_identifier rfl rfl fun _ _ => rfl).bind fun table =>
    (tracks_insertColumns table).bind fun columns =>
    (tracks_valuesWord table columns).bind fun _ =>
    (tracks_mustMatch rfl rfl fun _ _ => rfl).bind fun _ =>
    (tracks_values ⟨table, columns⟩).bind fun values =>
    (tracks_mustMatch (g := .whole (.insert table columns values)) rfl rfl
      fun t other => ?_).bind fun _ =>
    (tracks_semicolon rfl rfl fun _ _ => rfl).bind fun _ => .pure
  simp only [Draft.accept, Token.goesOn]
  split <;> simp_all

end Insert

section Select

variable (s : Selection)

theorem tracks_condition (j : Junction) :
    Tracks size (Goes size (.condition s j) (Without [])) condition
      fun c => Goes size (.afterCondition s (Junction.add c j)) (Without []) := by
  refine (tracks_identifier rfl rfl fun _ _ => rfl).bind fun column => ?_
  refine (tracks_accept rfl rfl fun _ _ => rfl).bind fun op => ?_
  refine Tracks.bind (tracks_accept (N := fun l => .afterCondition s (Junction.add ⟨column, op, l⟩ j))
    rfl rfl fun _ _ => rfl) fun _ => ?_
  exact .pure

theorem tracks_connective (f : Filter) (n : Nat) :
    Tracks size (Within (n + 1) (Goes size (.afterCondition s f) (Without []))) connective fun
      | some op => Within n (Goes size (.condition s (some (f, op))) (Without []))
      | none => Goes size (.afterCondition s f) (Without [.keyword .OR, .keyword .AND]) :=
  tracks_ifMatch_within (fun t kind => by simp [Draft.accept, Token.connective?, kind]) .pure
    (tracks_ifMatch_within (fun t kind => by simp [Draft.accept, Token.connective?, kind]) .pure
      (.of_bounded .pure))

def Filtered (size : Nat) (s : Selection) : Option Filter → Claim
  | none => Goes size (.afterTable s) (Without [.keyword .WHERE])
  | some f => Goes size (.afterCondition s f) (Without [.keyword .OR, .keyword .AND])

theorem tracks_filter :
    Tracks size (Goes size (.afterTable s) (Without [])) filter (Filtered size s) := by
  refine tracks_ifMatch (g := .condition s none) (fun t kind => if_pos kind) ?_ .pure
  refine (tracks_condition s none).bind fun first => ?_
  refine Tracks.bind (tracks_many
    (R := fun links => Goes size (.afterCondition s ⟨first, links⟩) (Without []))
    (E := fun links => Filtered size s (some ⟨first, links⟩)) (fun links n => ?_) []) fun _ => .pure
  refine (tracks_connective s ⟨first, links⟩ n).bind fun op => ?_
  cases op with
  | none => exact .pure
  | some op => exact (tracks_condition s _).within.bind fun c => .pure

theorem tracks_selected (f : Option Filter) :
    Tracks size (Filtered size s f) (mustMatch .semicolon)
      fun _ => Done size (.select s.columns s.table f) := by
  cases f with
  | none => exact tracks_semicolon rfl rfl fun t other => if_neg (by simpa using other)
  | some f =>
    refine tracks_semicolon rfl rfl fun t other => ?_
    simp only [Draft.accept, Token.connective?]
    split <;> simp_all

theorem tracks_select : Tracks size (Starts size [.SELECT]) select (Done size) :=
  (tracks_opening (g := .list .select) fun t kind => by simp [Draft.accept, kind]).bind fun _ =>
  (tracks_columnList .select).bind fun columns =>
  (tracks_closing .select columns).bind fun _ =>
  (tracks_identifier rfl rfl fun _ _ => rfl).bind fun table =>
  (tracks_filter ⟨columns, table⟩).bind fun f =>
  (tracks_selected ⟨columns, table⟩ f).bind fun _ => .pure

end Select

section Statements

variable {k : Kind} {H : List Item → Prop} {items : List Item}

theorem kindAt_zero (t : Token) (rest : List Item) : kindAt 0 (.ok t :: rest) = some t.kind := rfl

theorem kindAt_succ (n : Nat) (items : List Item) : kindAt (n + 1) items = kindAt n items.tail := by
  cases items <;> rfl

theorem opening_of_kindAt (head : some k = kindAt 0 items) (behind : H items.tail) :
    Opening k H items := by
  obtain _ | ⟨err | t, rest⟩ := items
  · cases head
  · cases head
  · exact ⟨t, rest, rfl, (Option.some.inj head).symm, behind⟩

theorem tracks_word {w : Keyword} {x : Parsing Statement}
    (tracks : Tracks size (Starts size [w]) x (Done size)) :
    Tracks size (fun items out => Starts size [] items out ∧ some (.keyword w) = kindAt 0 items) x
      (Done size) :=
  tracks.of_imp fun _ _ ⟨⟨_, read⟩, head⟩ => ⟨opening_of_kindAt head (without_nil _), read⟩

theorem tracks_create (second : Option Kind) :
    Tracks size (Goes size .start (Opening (.keyword .CREATE) fun rest => second = kindAt 0 rest))
      (create second) (Done size) := by
  unfold create
  split
  · refine tracks_createDatabase.of_imp ?_
    rintro _ _ ⟨⟨t, rest, rfl, kind, next⟩, read⟩
    exact ⟨⟨t, rest, rfl, kind, opening_of_kindAt next (without_nil _)⟩, read⟩
  · refine tracks_createTable.of_imp ?_
    rintro _ _ ⟨⟨t, rest, rfl, kind, next⟩, read⟩
    exact ⟨⟨t, rest, rfl, kind, opening_of_kindAt next (without_nil _)⟩, read⟩
  · rename_i database table
    refine (tracks_advance (g := .create) fun t kind => by simp [Draft.accept, kind]).bind fun _ =>
      tracks_refuse rfl rfl fun t rest next => ?_
    rw [next, kindAt_zero] at database table
    rw [Draft.accept]
    split <;> simp_all

theorem tracks_statement : Tracks size (Starts size []) statement (Done size) := by
  refine (tracks_peekKind _ (by decide)).bind fun kind => ?_
  split
  · refine (tracks_peekKind _ (by decide)).bind fun second => (tracks_create second).of_imp ?_
    rintro items _ ⟨⟨⟨_, read⟩, head⟩, next⟩
    exact ⟨opening_of_kindAt head (next.trans (kindAt_succ 0 items)), read⟩
  · exact tracks_word tracks_drop
  · exact tracks_word tracks_useDatabase
  · exact tracks_word tracks_showNames
  · exact tracks_word tracks_insert
  · exact tracks_word tracks_select
  · have refuse : Tracks size (Goes size .start fun items => kind = kindAt 0 items)
        (matchToken .statement fun _ => (none : Option Statement)) (Done size) := by
      refine tracks_refuse rfl rfl fun t rest head => ?_
      rw [kindAt_zero] at head
      rw [Draft.accept]
      split <;> simp_all
    refine refuse.of_imp ?_
    rintro _ _ ⟨⟨-, read⟩, head⟩
    exact ⟨head, read⟩

end Statements

section Results

variable {p : Parser} {items : List Item} {n : Nat}

namespace Parser.Faces

theorem skipSemicolons (faces : p.Faces size items) (enough : items.length ≤ n) :
    ∃ left, (p.skipSemicolons n).Faces size left ∧ left.head?.any Item.isSemicolon = false ∧
      Reader.read size .between items = Reader.read size .between left := by
  induction n generalizing p items with
  | zero =>
    obtain rfl := List.eq_nil_of_length_eq_zero (Nat.le_zero.1 enough)
    exact ⟨[], faces, rfl, rfl⟩
  | succ n ih =>
    rw [Parser.skipSemicolons]
    cases found : items.head?.any Item.isSemicolon with
    | false =>
      obtain ⟨p', takeIf, faces'⟩ := faces.takeIf_other found
      rw [takeIf]
      exact ⟨items, faces', found, rfl⟩
    | true =>
      obtain _ | ⟨i, rest⟩ := items
      · cases found
      have semicolon : i.isSemicolon = true := found
      obtain ⟨p', takeIf, faces'⟩ := faces.takeIf_cons semicolon
      obtain ⟨left, faces', other, read⟩ := ih faces' (Nat.le_of_succ_le_succ enough)
      rw [takeIf]
      refine ⟨left, faces', other, ?_⟩
      rw [← read, Reader.read, Reader.step, if_pos semicolon]
      rfl

theorem recover (faces : p.Faces size items) (enough : items.length ≤ n) :
    ∃ left, (p.recover n).Faces size left ∧
      Reader.read size p.resume items = Reader.read size .between left := by
  -- A parser knows whether what it failed at was the semicolon of the statement.
  induction n generalizing p items with
  | zero =>
    obtain rfl := List.eq_nil_of_length_eq_zero (Nat.le_zero.1 enough)
    refine ⟨[], faces, ?_⟩
    rw [resume]
    split <;> rfl
  | succ n ih =>
    rw [Parser.recover, resume]
    split
    · exact ⟨items, faces, rfl⟩
    · obtain ⟨p', take, faces', boundary⟩ := faces.take
      rw [take]
      obtain _ | ⟨i, rest⟩ := items
      · exact ⟨[], faces', rfl⟩
      · obtain ⟨left, faces', read⟩ := ih faces' (Nat.le_of_succ_le_succ enough)
        refine ⟨left, faces', ?_⟩
        rw [← read, resume, boundary]
        rfl

theorem next (faces : p.Faces size items) : match p.next with
    | (some r, p') => ∃ left, p'.Faces size left ∧
        Reader.read size .between items = r :: Reader.read size .between left
    | (none, _) => Reader.read size .between items = [] := by
  obtain ⟨left, faces, other, read⟩ := faces.skipSemicolons (faces.size_eq ▸ faces.length_le)
  obtain ⟨look, peek, faces⟩ := faces.peek (Nat.succ_pos 1)
  rw [Parser.next, Lookahead.peek, peek, read]
  obtain _ | ⟨i, rest⟩ := left
  · rfl
  · have start : Reader.read size .between (i :: rest) = Reader.read size (.reading .start) (i :: rest) := by
      rw [Reader.read, Reader.step, if_neg (by simpa using other)]
      rfl
    obtain ⟨left, faces, -, ends⟩ := tracks_statement faces ⟨without_nil _, start⟩
    dsimp only [List.getElem?_cons_zero]
    generalize statement _ = ending at faces ends ⊢
    obtain ⟨e | s, p'⟩ := ending
    · obtain ⟨left', faces', recovered⟩ :=
        Faces.recover faces (faces.size_eq ▸ faces.length_le)
      exact ⟨left', faces', ends.trans (congrArg _ recovered)⟩
    · exact ⟨left, faces, ends⟩

end Parser.Faces

theorem Reader.length_read_le (size : Nat) (r : Reader) (items : List Item) :
    (read size r items).length ≤ items.length + (r.finish size).toList.length := by
  have advance_le (d : Draft) (i : Item) :
      (advance d i).1.toList.length + ((advance d i).2.finish size).toList.length ≤ 1 := by
    obtain err | t := i
    · exact Nat.le_refl _
    · rw [advance]
      split
      · split <;> exact Nat.le_refl _
      · split <;> exact Nat.le_refl _
  induction items generalizing r with
  | nil => exact Nat.le_add_left _ _
  | cons i rest ih =>
    have step_le : (r.step i).1.toList.length + ((r.step i).2.finish size).toList.length
        ≤ 1 + (r.finish size).toList.length := by
      cases r with
      | between =>
        rw [step]
        split
        · exact Nat.zero_le _
        · exact advance_le .start i
      | reading d => exact Nat.le_trans (advance_le d i) (Nat.le_add_right _ _)
      | skipping =>
        rw [step]
        split <;> exact Nat.zero_le _
    have rest_le := ih (r.step i).2
    rw [read, List.length_append, List.length_cons]
    omega

theorem results_eq (faces : p.Faces size items)
    (enough : (Reader.read size .between items).length ≤ n) :
    p.results n = Reader.read size .between items := by
  induction n generalizing p items with
  | zero => exact (List.eq_nil_of_length_eq_zero (Nat.le_zero.1 enough)).symm
  | succ n ih =>
    have next := faces.next
    rw [Parser.results]
    generalize p.next = result at next ⊢
    obtain ⟨_ | r, p'⟩ := result
    · exact Eq.symm next
    · obtain ⟨left, faces', read⟩ := next
      rw [read] at enough ⊢
      exact congrArg _ (ih faces' (Nat.le_of_succ_le_succ enough))

end Results

section Items

namespace Lexer

theorem scanFrom_eq (pos : Nat) (cs : List Char) : scanFrom pos 0 cs = match nextFrom pos cs with
    | (some i, l) => i :: scanFrom l.position 0 l.rest
    | (none, _) => [] := by
  induction cs generalizing pos with
  | nil => rfl
  | cons c cs ih =>
    rw [scanFrom, nextFrom]
    split
    · exact ih _
    · obtain ⟨behind, text⟩ := tailOf_isPrefix c cs
      have skip := scanFrom_skip (pos + c.utf8Size) (tailOf c cs) behind
      have taken : cs.drop (tailOf c cs).length = behind := by
        conv => lhs; arg 2; rw [← text]
        exact List.drop_left
      rw [text, Nat.add_assoc] at skip
      rw [skip, ← taken]
      rfl

theorem item?_eq (n : Nat) (l : Lexer) :
    source.item? n (some l) = (scanFrom l.position 0 l.rest)[n]? := by
  have next (l : Lexer) : source.next l = nextFrom l.position l.rest := rfl
  induction n generalizing l with
  | zero =>
    simp only [scanFrom_eq l.position, Source.item?, Source.after, Source.pull, next]
    rcases nextFrom l.position l.rest with ⟨_ | i, l'⟩ <;> rfl
  | succ n ih =>
    simp only [scanFrom_eq l.position, Source.item?_succ, Source.pull, next]
    rcases nextFrom l.position l.rest with ⟨_ | i, l'⟩
    · exact source.item?_none n
    · exact ih l'

end Lexer

theorem length_scanFrom_le (pos skip : Nat) (cs : List Char) :
    (scanFrom pos skip cs).length ≤ Text.byteSize cs := by
  induction cs generalizing pos skip with
  | nil => exact Nat.zero_le _
  | cons c cs ih =>
    have size := c.utf8Size_pos
    rw [Text.byteSize]
    cases skip with
    | succ skip => exact Nat.le_trans (ih _ skip) (Nat.le_add_left _ _)
    | zero =>
      rw [scanFrom]
      split
      · exact Nat.le_trans (ih _ 0) (Nat.le_add_left _ _)
      · have rest := ih (pos + c.utf8Size) (tailOf c cs).length
        rw [List.length_cons]
        omega

theorem faces_ofText (s : String) : (Parser.ofText s).Faces s.utf8ByteSize (scan s) where
  size_eq := rfl
  coming_eq n := by
    have coming := (Parser.ofText s).items.coming_live n
    rw [show (Parser.ofText s).items.buffer.length + n = n from Nat.zero_add n] at coming
    exact coming.trans (Lexer.item?_eq n (.ofText s))
  length_le := by
    rw [Text.utf8ByteSize_eq]
    exact length_scanFrom_le 0 0 s.toList

end Items

/-- What is parsed of a text is what is read from its items. -/
theorem parse_eq_read (s : String) : parse s = Reader.read s.utf8ByteSize .between (scan s) := by
  have faces := faces_ofText s
  refine results_eq faces (Nat.le_trans (Reader.length_read_le _ _ _) ?_)
  exact faces.length_le

end RowStore.Sql
