import RowStore.Proofs.Engine.Reached

/-!
Two sessions in different databases that take turns with statements about tables. Neither can tell that
the other is there, and the order of the turns does not matter for the files.
-/

namespace RowStore

open Engine

variable {δ ι ρ : Type}

namespace Engine

def takeTurns (c : Catalog δ) (s t : Session) (w : World δ) :
    List (Sql.Statement ⊕ Sql.Statement) → List Result × List Result × World δ
  | [] => ([], [], w)
  | .inl stmt :: turns =>
    let (r, s', w') := runParsed c s w (.ok stmt)
    let (rs, qs, w'') := takeTurns c s' t w' turns
    (r :: rs, qs, w'')
  | .inr stmt :: turns =>
    let (q, t', w') := runParsed c t w (.ok stmt)
    let (rs, qs, w'') := takeTurns c s t' w' turns
    (rs, q :: qs, w'')

end Engine

def databaseAt (root : Path) (f : Files) (database : String) : Option Tree :=
  match f.list root with
  | .ok es => Entries.get? database es
  | .error _ => none

theorem databaseAt_disk {v : Volume} {state : δ} {es : List (String × Tree)} {w : World δ}
    (disk : w.disk = v.disk state es) (database : String) :
    databaseAt v.root w.files database = Entries.get? database es := by
  have holding : w.files = v.holding es := congrArg Disk.files disk
  rw [databaseAt, holding, Files.list_directory (v.locate_root es) (v.at?_root es)]

structure Revises (databases : List String) (es es' : List (String × Tree)) : Prop where
  names : es'.map Prod.fst = es.map Prod.fst
  others : ∀ other, other ∉ databases → Entries.get? other es' = Entries.get? other es

namespace Revises

variable {databases : List String} {database : String} {es es' es'' : List (String × Tree)}

theorem refl (databases : List String) (es : List (String × Tree)) : Revises databases es es :=
  ⟨rfl, fun _ _ => rfl⟩

theorem trans (h : Revises databases es es') (h' : Revises databases es' es'') :
    Revises databases es es'' :=
  ⟨h'.names.trans h.names, fun other away => (h'.others other away).trans (h.others other away)⟩

theorem of_mem (h : Revises [database] es es') (mem : database ∈ databases) :
    Revises databases es es' :=
  ⟨h.names, fun other away => h.others other fun same => away (List.mem_singleton.1 same ▸ mem)⟩

theorem put {t u : Tree} (entry : Entries.get? database es = some t) :
    Revises [database] es (Entries.put database u es) :=
  ⟨Entries.map_fst_put entry, fun _ away =>
    Entries.get?_put_of_ne (fun same => away (List.mem_singleton.2 same)) u es⟩

end Revises

/-- Wherever `o` stands under the name of the database, the run gives `r` and the session back, leaves
`o'` under that name, and changes no other database. -/
def Brings (v : Volume) (database : String) (s : Session)
    (run : World δ → ρ × Session × World δ) (o : Option Tree) (r : ρ) (o' : Option Tree) : Prop :=
  ∀ w state es, w.disk = v.disk state es → Entries.get? database es = o →
    ∃ w' es', run w = (r, s, w') ∧ w'.disk = v.disk state es' ∧ Entries.get? database es' = o' ∧
      Revises [database] es es'

section Runs

variable {v : Volume} {database : String} {s : Session} {o o' o'' : Option Tree}

theorem Brings.nil : Brings v database s (fun w => runAll (v.catalog δ) s w []) o [] o :=
  fun w _ es disk at_ => ⟨w, es, rfl, disk, at_, .refl _ es⟩

theorem Brings.cons {p : Sql.Parsed} {ps : List Sql.Parsed} {r : Result} {rs : List Result}
    (first : Brings v database s (fun w => runParsed (v.catalog δ) s w p) o r o')
    (rest : Brings v database s (fun w => runAll (v.catalog δ) s w ps) o' rs o'') :
    Brings v database s (fun w => runAll (v.catalog δ) s w (p :: ps)) o (r :: rs) o'' := by
  intro w state es disk at_
  obtain ⟨w', es', ran, disk', at', revised⟩ := first w state es disk at_
  obtain ⟨w'', es'', ran', disk'', at'', revised'⟩ := rest w' state es' disk' at'
  refine ⟨w'', es'', ?_, disk'', at'', revised.trans revised'⟩
  dsimp only at ran ran' ⊢
  simp only [runAll, ran, ran']

/-- What a statement about tables gives and what it makes of its database depends on this database
alone. -/
theorem exists_brings {stmt : Sql.Statement} (current : s.database = some database)
    (hd : Sql.IsName database) (tables : stmt.OnTables)
    (names : ∀ name ∈ stmt.names, Sql.PlainName name) (orderly : OrderlyAt v database o) :
    ∃ r o', OrderlyAt v database o' ∧
      Brings v database s (fun w => runParsed (v.catalog δ) s w (.ok stmt)) o r o' := by
  cases o with
  | none =>
    refine ⟨.error (.noSuchDatabase database), none, orderly, fun w state es disk at_ => ?_⟩
    have refused := execute_missing current (v.misses state hd at_) tables
    rw [← disk] at refused
    obtain ⟨w', disk', ran⟩ := runParsed_of_yields refused
    exact ⟨w', es, ran, disk'.trans disk, at_, .refl _ es⟩
  | some t =>
    obtain ⟨reached, fs, rfl, inner⟩ := orderly t rfl
    obtain ⟨x, whole, confined⟩ :=
      execute_confined (δ := δ) (v := v) current reached tables names
    obtain ⟨r, fs', orderly', -, run⟩ := confined fs inner
    have orderlyAt : OrderlyAt v database (some (.directory fs')) := by
      rintro _ ⟨⟩
      exact ⟨reached, fs', rfl, orderly'⟩
    refine ⟨r, some (.directory fs'), orderlyAt, fun w state es disk at_ => ?_⟩
    have yields := run state es at_
    rw [← disk] at yields
    obtain ⟨w', disk', ran⟩ := runParsed_of_keeping stmt whole yields
    exact ⟨w', _, ran, disk', Entries.get?_put_self _ _ es, .put at_⟩

end Runs

section TwoSessions

variable {v : Volume} {dA dB : String} {s t : Session} {o p : Option Tree}

theorem exists_takeTurns (currentA : s.database = some dA) (currentB : t.database = some dB)
    (hA : Sql.IsName dA) (hB : Sql.IsName dB) (apart : dA ≠ dB)
    {turns : List (Sql.Statement ⊕ Sql.Statement)}
    (tables : ∀ turn ∈ turns, (Sum.elim id id turn).OnTables ∧
      ∀ name ∈ (Sum.elim id id turn).names, Sql.PlainName name)
    (orderlyA : OrderlyAt v dA o) (orderlyB : OrderlyAt v dB p) : ∃ rs o' qs p',
      Brings v dA s (fun w => runAll (v.catalog δ) s w
        ((turns.filterMap Sum.getLeft?).map .ok)) o rs o' ∧
      Brings v dB t (fun w => runAll (v.catalog δ) t w
        ((turns.filterMap Sum.getRight?).map .ok)) p qs p' ∧
      ∀ w state es, w.disk = v.disk state es → Entries.get? dA es = o → Entries.get? dB es = p →
        ∃ w' es', takeTurns (v.catalog δ) s t w turns = (rs, qs, w') ∧
          w'.disk = v.disk state es' ∧ Entries.get? dA es' = o' ∧ Entries.get? dB es' = p' ∧
          Revises [dA, dB] es es' := by
  -- By turns: what one session does leaves under the other's name what was there.
  induction turns generalizing o p with
  | nil =>
    exact ⟨[], o, [], p, .nil, .nil, fun w state es disk atA atB =>
      ⟨w, es, rfl, disk, atA, atB, .refl _ es⟩⟩
  | cons turn turns ih =>
    have rest := fun turn mem => tables turn (.tail _ mem)
    cases turn with
    | inl stmt =>
      have on : stmt.OnTables := (tables _ (.head _)).1
      have names : ∀ name ∈ stmt.names, Sql.PlainName name := (tables _ (.head _)).2
      obtain ⟨r, o₁, orderly₁, first⟩ := exists_brings (v := v) (δ := δ) currentA hA on names orderlyA
      obtain ⟨rs, o', qs, p', left_, right_, both⟩ := ih rest orderly₁ orderlyB
      refine ⟨r :: rs, o', qs, p', first.cons left_, right_, fun w state es disk atA atB => ?_⟩
      obtain ⟨w₁, es₁, ran, disk₁, atA₁, revised⟩ := first w state es disk atA
      have atB₁ := (revised.others dB fun same => apart (List.mem_singleton.1 same).symm).trans atB
      obtain ⟨w', es', ran', disk', atA', atB', revised'⟩ := both w₁ state es₁ disk₁ atA₁ atB₁
      refine ⟨w', es', ?_, disk', atA', atB', .trans (revised.of_mem (by simp)) revised'⟩
      dsimp only at ran
      simp only [takeTurns, ran, ran']
    | inr stmt =>
      have on : stmt.OnTables := (tables _ (.head _)).1
      have names : ∀ name ∈ stmt.names, Sql.PlainName name := (tables _ (.head _)).2
      obtain ⟨q, p₁, orderly₁, first⟩ := exists_brings (v := v) (δ := δ) currentB hB on names orderlyB
      obtain ⟨rs, o', qs, p', left_, right_, both⟩ := ih rest orderlyA orderly₁
      refine ⟨rs, o', q :: qs, p', left_, first.cons right_, fun w state es disk atA atB => ?_⟩
      obtain ⟨w₁, es₁, ran, disk₁, atB₁, revised⟩ := first w state es disk atB
      have atA₁ := (revised.others dA fun same => apart (List.mem_singleton.1 same)).trans atA
      obtain ⟨w', es', ran', disk', atA', atB', revised'⟩ := both w₁ state es₁ disk₁ atA₁ atB₁
      refine ⟨w', es', ?_, disk', atA', atB', .trans (revised.of_mem (by simp)) revised'⟩
      dsimp only at ran
      simp only [takeTurns, ran, ran']

theorem takeTurns_of_neat (currentA : s.database = some dA) (currentB : t.database = some dB)
    (hA : Sql.IsName dA) (hB : Sql.IsName dB) (apart : dA ≠ dB)
    {turns : List (Sql.Statement ⊕ Sql.Statement)}
    (tables : ∀ turn ∈ turns, (Sum.elim id id turn).OnTables ∧
      ∀ name ∈ (Sum.elim id id turn).names, Sql.PlainName name)
    {w : World δ} {state : δ} {es : List (String × Tree)} (disk : w.disk = v.disk state es)
    (neat : Neat v es) :
    let runA := runAll (v.catalog δ) s w ((turns.filterMap Sum.getLeft?).map .ok)
    let runB := runAll (v.catalog δ) t w ((turns.filterMap Sum.getRight?).map .ok)
    runA.2.1 = s ∧ runB.2.1 = t ∧ ∃ w' es',
      takeTurns (v.catalog δ) s t w turns = (runA.1, runB.1, w') ∧ w'.disk = v.disk state es' ∧
      Revises [dA, dB] es es' ∧
      Entries.get? dA es' = databaseAt v.root runA.2.2.files dA ∧
      Entries.get? dB es' = databaseAt v.root runB.2.2.files dB := by
  intro runA runB
  obtain ⟨rs, o, qs, p, aloneA, aloneB, both⟩ := exists_takeTurns (v := v) (δ := δ) currentA currentB
    hA hB apart tables (neat.database dA) (neat.database dB)
  obtain ⟨w₁, es₁, ranA, disk₁, rfl, -⟩ := aloneA w state es disk rfl
  obtain ⟨w₂, es₂, ranB, disk₂, rfl, -⟩ := aloneB w state es disk rfl
  obtain ⟨w', es', ran, disk', atA, atB, revised⟩ := both w state es disk rfl rfl
  have eqA : runA = (rs, s, w₁) := ranA
  have eqB : runB = (qs, t, w₂) := ranB
  rw [eqA, eqB]
  exact ⟨rfl, rfl, w', es', ran, disk', revised, atA.trans (databaseAt_disk disk₁ dA).symm,
    atB.trans (databaseAt_disk disk₂ dB).symm⟩

/-- Two sessions in different databases do not interfere: however their statements about tables are
interleaved, each gets the results of its own run alone and leaves its database as that run leaves it,
the other databases stay, and the files are the same in the end. -/
theorem takeTurns_eq_alone [DecidableEq ι] {data : Path} {S : ι → Session} {w : World δ}
    (reached : Reached data S w) {a b : ι} {dA dB : String}
    (currentA : (S a).database = some dA) (currentB : (S b).database = some dB) (apart : dA ≠ dB)
    {as bs : List Sql.Statement}
    (tables : ∀ stmt ∈ as ++ bs, stmt.OnTables ∧ ∃ text, .ok stmt ∈ Sql.parse text)
    {turns : List (Sql.Statement ⊕ Sql.Statement)} (first : turns.filterMap Sum.getLeft? = as)
    (second : turns.filterMap Sum.getRight? = bs) :
    let c := Catalog.ofDataDirectory data .onFiles
    let at_ := fun w : World δ => databaseAt (data.join "databases") w.files
    ∃ rs qs w₁ w₂ w', runAll c (S a) w (as.map .ok) = (rs, S a, w₁) ∧
      runAll c (S b) w (bs.map .ok) = (qs, S b, w₂) ∧
      takeTurns c (S a) (S b) w turns = (rs, qs, w') ∧
      at_ w' dA = at_ w₁ dA ∧ at_ w' dB = at_ w₂ dB ∧
      (∀ other, other ≠ dA → other ≠ dB → at_ w' other = at_ w other) ∧
      ∀ turns', turns'.filterMap Sum.getLeft? = as → turns'.filterMap Sum.getRight? = bs →
        (takeTurns c (S a) (S b) w turns').2.2.files = w'.files := by
  intro c at_
  obtain ⟨v, state, root, tidy⟩ | lost := reached.tidy_or_lost
  case inr => cases (lost.session a).symm.trans currentA
  obtain ⟨es, disk, neat⟩ := tidy.disk
  have hA := (tidy.session a dA currentA).isName
  have hB := (tidy.session b dB currentB).isName
  have fits : ∀ turns : List (Sql.Statement ⊕ Sql.Statement), turns.filterMap Sum.getLeft? = as →
      turns.filterMap Sum.getRight? = bs → ∀ turn ∈ turns,
        (Sum.elim id id turn).OnTables ∧
          ∀ name ∈ (Sum.elim id id turn).names, Sql.PlainName name := by
    rintro turns rfl rfl turn mem
    have inside : Sum.elim id id turn
        ∈ turns.filterMap Sum.getLeft? ++ turns.filterMap Sum.getRight? := by
      cases turn with
      | inl stmt => exact List.mem_append_left _ (List.mem_filterMap.2 ⟨_, mem, rfl⟩)
      | inr stmt => exact List.mem_append_right _ (List.mem_filterMap.2 ⟨_, mem, rfl⟩)
    obtain ⟨on, text, parsed⟩ := tables _ inside
    exact ⟨on, (Sql.printable_of_mem_parse parsed).names⟩
  have same : c = v.catalog δ := v.ofDataDirectory_eq root
  subst first second
  simp only [at_, same, ← root]
  obtain ⟨sessionA, sessionB, w', es', ran, disk', revised, atA, atB⟩ :=
    takeTurns_of_neat currentA currentB hA hB apart (fits turns rfl rfl) disk neat
  refine ⟨_, _, _, _, w', Prod.ext rfl (Prod.ext sessionA rfl), Prod.ext rfl (Prod.ext sessionB rfl),
    ran, (databaseAt_disk disk' dA).trans atA, (databaseAt_disk disk' dB).trans atB, ?_, ?_⟩
  · intro other awayA awayB
    rw [databaseAt_disk disk', databaseAt_disk disk]
    exact revised.others other (by simp [awayA, awayB])
  · intro turns' first' second'
    obtain ⟨-, -, w'', es'', ran', disk'', revised', atA', atB'⟩ :=
      takeTurns_of_neat currentA currentB hA hB apart (fits turns' first' second') disk neat
    rw [first'] at atA'
    rw [second'] at atB'
    have under : ∀ name, Entries.get? name es'' = Entries.get? name es' := by
      intro name
      by_cases isA : name = dA
      · rw [isA, atA', atA]
      · by_cases isB : name = dB
        · rw [isB, atB', atB]
        · have away : name ∉ [dA, dB] := by simp [isA, isB]
          rw [revised'.others name away, revised.others name away]
    have entries : es'' = es' := Entries.ext_get? (revised'.names.trans revised.names.symm)
      (revised.names ▸ neat.nodup) under
    rw [ran']
    exact congrArg Disk.files (disk''.trans (entries ▸ disk'.symm))

end TwoSessions

section TwoDatabases

def firstTurn : Sql.Statement := .insert ⟨"t", ⟨12, 12⟩⟩ none [.number "1"]

def secondTurn : Sql.Statement := .select .all ⟨"t", ⟨40, 40⟩⟩ none

theorem mem_parse_turns : Except.ok firstTurn ∈ Sql.parse "INSERT INTO t VALUES (1); SELECT * FROM t;" ∧
    Except.ok secondTurn ∈ Sql.parse "INSERT INTO t VALUES (1); SELECT * FROM t;" := by
  decide +kernel

def firstOrder : List (Sql.Statement ⊕ Sql.Statement) := [.inl firstTurn, .inr secondTurn]

def otherOrder : List (Sql.Statement ⊕ Sql.Statement) := [.inr secondTurn, .inl firstTurn]

theorem takeTurns_eq_alone_twoDatabases :
    (takeTurns sharedCatalog (twoDatabases.1 false) (twoDatabases.1 true) twoDatabases.2
        firstOrder).2.1
        = (runAll sharedCatalog (twoDatabases.1 true) twoDatabases.2 [.ok secondTurn]).1 ∧
      (takeTurns sharedCatalog (twoDatabases.1 false) (twoDatabases.1 true) twoDatabases.2
        otherOrder).2.2.files
        = (takeTurns sharedCatalog (twoDatabases.1 false) (twoDatabases.1 true) twoDatabases.2
          firstOrder).2.2.files := by
  have current : (twoDatabases.1 false).database = some "d" ∧
      (twoDatabases.1 true).database = some "e" := by decide +kernel
  have tables : ∀ stmt ∈ [firstTurn] ++ [secondTurn],
      stmt.OnTables ∧ ∃ text, .ok stmt ∈ Sql.parse text := by
    intro stmt mem
    rcases List.mem_cons.1 mem with rfl | mem
    · exact ⟨trivial, _, mem_parse_turns.1⟩
    · cases List.mem_singleton.1 mem
      exact ⟨trivial, _, mem_parse_turns.2⟩
  have first : firstOrder.filterMap Sum.getLeft? = [firstTurn] := rfl
  have second : firstOrder.filterMap Sum.getRight? = [secondTurn] := rfl
  have same := takeTurns_eq_alone reached_twoDatabases current.1 current.2 (by decide) tables first
    second
  generalize twoDatabases = both at same ⊢
  obtain ⟨rs, qs, w₁, w₂, w', -, runB, ran, -, -, -, every⟩ := same
  refine ⟨?_, ?_⟩
  · exact (congrArg (fun r => r.2.1) ran).trans (congrArg Prod.fst runB).symm
  · exact (every otherOrder rfl rfl).trans (congrArg (fun r => r.2.2.files) ran).symm

end TwoDatabases

end RowStore
