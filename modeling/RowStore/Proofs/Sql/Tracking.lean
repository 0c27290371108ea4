import RowStore.Proofs.Lookahead.Coming
import RowStore.Proofs.Sql.Reader
import RowStore.Sql.Parser

/-!
A parser beside a reader: what a reader makes of the items still to come is what is left of the results
once the parser has done some of its work. Each way to put work together has a rule for that.
-/

namespace RowStore.Sql

/-- These are the items still to come, and there are no more of them than the text has bytes. -/
structure Parser.Faces (p : Parser) (size : Nat) (items : List Item) : Prop where
  size_eq : p.size = size
  coming_eq : ∀ n, p.items.coming n = items[n]?
  length_le : items.length ≤ size

def Parser.resume (p : Parser) : Reader := if p.atBoundary then .between else .skipping

namespace Parser.Faces

variable {p : Parser} {size : Nat} {items : List Item}

theorem take (faces : p.Faces size items) : ∃ p', p.take = (items.head?, p') ∧
    p'.Faces size items.tail ∧ p'.atBoundary = items.head?.any Item.isSemicolon := by
  have head : p.items.next.1 = items.head? := by
    rw [Lookahead.next_fst, faces.coming_eq, List.head?_eq_getElem?]
  refine ⟨_, Prod.ext head rfl, ⟨faces.size_eq, fun n => ?_, ?_⟩,
    congrArg (Option.any Item.isSemicolon) head⟩
  · rw [List.getElem?_tail, ← faces.coming_eq, ← Lookahead.coming_next]
    rfl
  · exact Nat.le_trans (List.length_tail ▸ Nat.sub_le _ 1) faces.length_le

theorem takeIf_cons {i : Item} (faces : p.Faces size (i :: items)) {test : Item → Bool}
    (passed : test i = true) : ∃ p', p.takeIf test = (some i, p') ∧ p'.Faces size items := by
  have head : (p.items.nextIf test).1 = some i := by
    rw [Lookahead.nextIf_fst, if_pos (by decide), faces.coming_eq, List.getElem?_cons_zero,
      Option.filter_some, if_pos passed]
  have passes := p.items.passes_nextIf test
  rw [head] at passes
  refine ⟨_, Prod.ext head rfl, faces.size_eq, fun n => (passes.coming_eq n).trans ?_, ?_⟩
  · rw [faces.coming_eq, Option.toList_some, List.length_singleton, Nat.add_comm,
      List.getElem?_cons_succ]
  · exact Nat.le_of_succ_le faces.length_le

theorem takeIf_other (faces : p.Faces size items) {test : Item → Bool}
    (failed : items.head?.any test = false) :
    ∃ p', p.takeIf test = (none, p') ∧ p'.Faces size items := by
  have head : (p.items.nextIf test).1 = none := by
    rw [Lookahead.nextIf_fst, if_pos (by decide), faces.coming_eq, ← List.head?_eq_getElem?,
      Option.filter_eq_none_iff]
    intro i first
    rw [first] at failed
    simpa using failed
  have passes := p.items.passes_nextIf test
  rw [head] at passes
  refine ⟨_, Prod.ext head rfl, faces.size_eq, fun n => ?_, faces.length_le⟩
  exact (congrFun passes.coming_of_nil n).trans (faces.coming_eq n)

theorem peek (faces : p.Faces size items) {n : Nat} (near : n < 2) :
    ∃ look, p.items.peekNth n = (items[n]?, look) ∧ Faces { p with items := look } size items := by
  have item : (p.items.peekNth n).1 = items[n]? := by
    rw [Lookahead.peekNth_fst, if_pos near, faces.coming_eq]
  refine ⟨_, Prod.ext item rfl, faces.size_eq, fun m => ?_, faces.length_le⟩
  rw [← faces.coming_eq, ← (p.items.passes_peekNth n).coming_of_nil]

end Parser.Faces

namespace Parsing

variable {α β : Type}

theorem bind_apply (x : Parsing α) (f : α → Parsing β) (p : Parser) :
    (x >>= f) p = match x p with
      | (.ok a, p') => f a p'
      | (.error e, p') => (.error e, p') := by
  have run : (x >>= f) p = (ExceptT.bindCont f (x p).1) (x p).2 := rfl
  rw [run]
  rcases x p with ⟨_ | _, _⟩ <;> rfl

theorem matchToken_apply (e : Expected) (f : Token → Option α) (p : Parser) :
    matchToken e f p = match p.take with
      | (some (.ok t), p') => match f t with
        | some a => (.ok a, p')
        | none => (.error (.unexpected e (some (Text.clipped t.text)) t.span.start), p')
      | (some (.error err), p') => (.error (.lexing err), p')
      | (none, p') => (.error (.unexpected e none p'.size), p') := by
  rw [matchToken, bind_apply, advance]
  dsimp only
  obtain ⟨_ | err | t, p'⟩ := p.take
  · rfl
  · rfl
  · dsimp only
    cases f t <;> rfl

end Parsing

/-- What the items still to come have to do with what is left of the results. -/
abbrev Claim := List Item → List Parsed → Prop

def Ends {α : Type} (size : Nat) (K : α → Claim) (left : List Item) (out : List Parsed) :
    Except ParseError α × Parser → Prop
  | (.ok a, _) => K a left out
  | (.error e, p) => out = .error e :: Reader.read size p.resume left

/-- Under the claim `R` work ends under the claim `K`, or it fails, and what a reader gives that recovers
from there is left of the results. -/
def Tracks {α : Type} (size : Nat) (R : Claim) (x : Parsing α) (K : α → Claim) : Prop :=
  ∀ ⦃p items out⦄, p.Faces size items → R items out →
    ∃ left, Parser.Faces (x p).2 size left ∧ left.length ≤ items.length ∧ Ends size K left out (x p)

def Within (n : Nat) (R : Claim) : Claim := fun items out => items.length < n ∧ R items out

section Ends

variable {α : Type} {size : Nat} {K K' : α → Claim} {left : List Item} {out : List Parsed}

theorem Ends.imp {ending : Except ParseError α × Parser} (ends : Ends size K left out ending)
    (h : ∀ a, K a left out → K' a left out) : Ends size K' left out ending := by
  obtain ⟨e | a, p⟩ := ending
  · exact ends
  · exact h a ends

end Ends

namespace Tracks

variable {α β : Type} {size n : Nat} {R R' : Claim} {x : Parsing α} {K K' : α → Claim}

theorem pure {a : α} : Tracks size (K a) (pure a) K :=
  fun _ items _ faces claim => ⟨items, faces, Nat.le_refl _, claim⟩

theorem mono (tracks : Tracks size R x K) (before : ∀ items out, R' items out → R items out)
    (behind : ∀ a items out, K a items out → K' a items out) : Tracks size R' x K' := by
  intro p items out faces claim
  obtain ⟨left, faces, le, ends⟩ := tracks faces (before _ _ claim)
  exact ⟨left, faces, le, ends.imp fun a => behind a left out⟩

theorem of_imp (tracks : Tracks size R x K) (before : ∀ items out, R' items out → R items out) :
    Tracks size R' x K :=
  tracks.mono before fun _ _ _ => id

theorem bind {f : α → Parsing β} {L : β → Claim} (first : Tracks size R x K)
    (second : ∀ a, Tracks size (K a) (f a) L) : Tracks size R (x >>= f) L := by
  intro p items out faces claim
  obtain ⟨left, faces, le, ends⟩ := first faces claim
  rw [Parsing.bind_apply]
  generalize x p = ending at faces ends ⊢
  obtain ⟨e | a, p'⟩ := ending
  · exact ⟨left, faces, le, ends⟩
  · obtain ⟨left', faces, le', ends⟩ := second a faces ends
    exact ⟨left', faces, Nat.le_trans le' le, ends⟩

theorem within (tracks : Tracks size R x K) :
    Tracks size (Within n R) x fun a => Within n (K a) := by
  intro p items out faces claim
  obtain ⟨left, faces, le, ends⟩ := tracks faces claim.2
  exact ⟨left, faces, le, ends.imp fun _ behind => ⟨Nat.lt_of_le_of_lt le claim.1, behind⟩⟩

theorem of_bounded (tracks : Tracks size R x K) : Tracks size (Within n R) x K :=
  tracks.of_imp fun _ _ => And.right

theorem of_within {K' : Nat → α → Claim}
    (tracks : ∀ n, Tracks size (Within (n + 1) R) x (K' n))
    (forget : ∀ n a items out, K' n a items out → K a items out) : Tracks size R x K := by
  -- There are always few enough items for some bound.
  intro p items out faces claim
  have bounded := (tracks items.length).mono (fun _ _ => id) (forget items.length)
  exact bounded faces ⟨Nat.lt_succ_self _, claim⟩

end Tracks

section Tokens

def Goes (size : Nat) (d : Draft) (H : List Item → Prop) : Claim :=
  fun items out => H items ∧ out = Reader.read size (.reading d) items

def Without (ks : List Kind) (items : List Item) : Prop :=
  ∀ t, items.head? = some (.ok t) → t.kind ∉ ks

def Opening (k : Kind) (H : List Item → Prop) (items : List Item) : Prop :=
  ∃ t rest, items = .ok t :: rest ∧ t.kind = k ∧ H rest

def Done (size : Nat) (s : Statement) : Claim :=
  fun items out => out = .ok s :: Reader.read size .between items

theorem without_nil (items : List Item) : Without [] items := fun _ _ => List.not_mem_nil

def Reader.Refuses (d : Draft) (t : Token) : Prop :=
  advance d (.ok t) =
    (some (.error (unexpected d t)), if t.kind = .semicolon then .between else .skipping)

theorem Reader.refuses_of_open {d : Draft} {t : Token} (open_ : d.closed? = none)
    (refuse : d.accept t = none) : Refuses d t := by
  rw [Refuses, advance, open_, refuse]
  split <;> rfl

open Parsing

variable {α β : Type} {size n : Nat} {d g : Draft} {k : Kind} {ks : List Kind} {e : Expected}
  {H : List Item → Prop} {f : Token → Option α} {K : α → Claim}

theorem tracks_matchToken_within (expected : d.expected = e)
    (token : ∀ t rest, H (.ok t :: rest) → match f t with
      | some a => K a rest (Reader.read size (.reading d) (.ok t :: rest))
      | none => Reader.Refuses d t) :
    Tracks size (Within (n + 1) (Goes size d H)) (matchToken e f) fun a => Within n (K a) := by
  -- Which token the work wants is all that is left to say: the end of the text and what is no token
  -- make the reader fail like the parser.
  rintro p items _ faces ⟨short, ahead, rfl⟩
  obtain ⟨p', take, faces', boundary⟩ := faces.take
  subst expected
  rw [matchToken_apply, take]
  obtain _ | ⟨err | t, rest⟩ := items
  · refine ⟨[], faces', Nat.le_refl _, ?_⟩
    show _ = _
    rw [faces'.size_eq, Parser.resume, boundary]
    rfl
  · refine ⟨rest, faces', Nat.le_succ _, ?_⟩
    show _ = _
    rw [Parser.resume, boundary]
    rfl
  · have wanted := token t rest ahead
    dsimp only [List.head?_cons]
    cases accepted : f t with
    | some a =>
      rw [accepted] at wanted
      exact ⟨rest, faces', Nat.le_succ _, Nat.lt_of_succ_lt_succ short, wanted⟩
    | none =>
      rw [accepted] at wanted
      refine ⟨rest, faces', Nat.le_succ _, ?_⟩
      show _ = _
      rw [Reader.read, Reader.step, wanted, Parser.resume, boundary]
      simp [Item.isSemicolon, Reader.unexpected]

theorem read_of_accept {t : Token} (accept : d.accept t = some g) (rest : List Item) :
    Reader.read size (.reading d) (.ok t :: rest) = Reader.read size (.reading g) rest := by
  have other : t.kind ≠ .semicolon := by
    intro semicolon
    rw [d.accept_semicolon semicolon] at accept
    cases accept
  rw [Reader.read, Reader.step, Reader.advance, if_neg other, accept]
  rfl

theorem tracks_accept_within {N : α → Draft} (expected : d.expected = e)
    (open_ : d.closed? = none) (accept : ∀ t, t.kind ∉ ks → d.accept t = (f t).map N) :
    Tracks size (Within (n + 1) (Goes size d (Without ks))) (matchToken e f)
      fun a => Within n (Goes size (N a) (Without [])) := by
  refine tracks_matchToken_within expected fun t rest ahead => ?_
  have accepts := accept t (ahead t rfl)
  cases found : f t with
  | some a =>
    rw [found] at accepts
    exact ⟨without_nil rest, read_of_accept accepts rest⟩
  | none =>
    rw [found] at accepts
    exact Reader.refuses_of_open open_ accepts

theorem tracks_matchToken (expected : d.expected = e)
    (token : ∀ t rest, H (.ok t :: rest) → match f t with
      | some a => K a rest (Reader.read size (.reading d) (.ok t :: rest))
      | none => Reader.Refuses d t) :
    Tracks size (Goes size d H) (matchToken e f) K :=
  .of_within (fun _ => tracks_matchToken_within expected token) fun _ _ _ _ => And.right

theorem tracks_accept {N : α → Draft} (expected : d.expected = e) (open_ : d.closed? = none)
    (accept : ∀ t, t.kind ∉ ks → d.accept t = (f t).map N) :
    Tracks size (Goes size d (Without ks)) (matchToken e f)
      fun a => Goes size (N a) (Without []) :=
  .of_within (fun _ => tracks_accept_within expected open_ accept) fun _ _ _ _ => And.right

theorem tracks_identifier {N : Identifier → Draft} (expected : d.expected = .kind .identifier)
    (open_ : d.closed? = none)
    (accept : ∀ t, t.kind ∉ ks → d.accept t = t.identifier?.map N) :
    Tracks size (Goes size d (Without ks)) identifier fun x => Goes size (N x) (Without []) :=
  tracks_accept expected open_ accept

theorem tracks_mustMatch (expected : d.expected = .kind k) (open_ : d.closed? = none)
    (accept : ∀ t, t.kind ∉ ks → d.accept t = t.goesOn k g) :
    Tracks size (Goes size d (Without ks)) (mustMatch k) fun _ => Goes size g (Without []) := by
  refine tracks_accept expected open_ fun t other => (accept t other).trans ?_
  rw [Token.goesOn]
  split <;> rfl

theorem tracks_refuse (expected : d.expected = e) (open_ : d.closed? = none)
    (refuse : ∀ t rest, H (.ok t :: rest) → d.accept t = none) :
    Tracks size (Goes size d H) (matchToken e fun _ => (none : Option α)) K :=
  tracks_matchToken expected fun t rest ahead => Reader.refuses_of_open open_ (refuse t rest ahead)

theorem tracks_semicolon {s : Statement} (expected : d.expected = .kind .semicolon)
    (closed : d.closed? = some s) (refuse : ∀ t, t.kind ∉ ks → d.accept t = none) :
    Tracks size (Goes size d (Without ks)) (mustMatch .semicolon) fun _ => Done size s := by
  refine tracks_matchToken expected fun t rest ahead => ?_
  by_cases semicolon : t.kind = .semicolon
  · rw [if_pos semicolon]
    show _ = _
    rw [Reader.read, Reader.step, Reader.advance, if_pos semicolon, closed]
    rfl
  · rw [if_neg semicolon]
    dsimp only
    rw [Reader.Refuses, Reader.advance, if_neg semicolon, refuse t (ahead t rfl), if_neg semicolon]

theorem tracks_opening (accept : ∀ t, t.kind = k → d.accept t = some g) :
    Tracks size (Goes size d (Opening k H)) (mustMatch k) fun _ => Goes size g H := by
  -- The token that is there need not be the one that the reader names when it is not.
  rintro p _ _ faces ⟨⟨t, rest, rfl, kind, ahead⟩, rfl⟩
  obtain ⟨p', take, faces', -⟩ := faces.take
  have run : mustMatch k p = (.ok (), p') := by
    rw [mustMatch, matchToken_apply, take]
    simp [kind]
  rw [run]
  exact ⟨rest, faces', Nat.le_succ _, ahead, read_of_accept (accept t kind) rest⟩

theorem tracks_advance (accept : ∀ t, t.kind = k → d.accept t = some g) :
    Tracks size (Goes size d (Opening k H)) advance fun _ => Goes size g H := by
  rintro p _ _ faces ⟨⟨t, rest, rfl, kind, ahead⟩, rfl⟩
  obtain ⟨p', take, faces', -⟩ := faces.take
  have run : advance p = (.ok (some (.ok t)), p') := by rw [advance, take]; rfl
  rw [run]
  exact ⟨rest, faces', Nat.le_succ _, ahead, read_of_accept (accept t kind) rest⟩

def kindAt (n : Nat) (items : List Item) : Option Kind :=
  items[n]?.bind fun i => i.toOption.map Token.kind

theorem tracks_peekKind (R : Claim) (near : n < 2) :
    Tracks size R (peekKind n) fun kind items out => R items out ∧ kind = kindAt n items := by
  intro p items out faces claim
  obtain ⟨look, peek, faces'⟩ := faces.peek near
  have run : peekKind n p = (.ok (kindAt n items), { p with items := look }) := by
    rw [peekKind, peek]
    rfl
  rw [run]
  exact ⟨items, faces', Nat.le_refl _, claim, rfl⟩

theorem tracks_tryMatch_within (accept : ∀ t, t.kind = k → d.accept t = some g) :
    Tracks size (Within (n + 1) (Goes size d (Without ks))) (tryMatch k) fun
      | true => Within n (Goes size g (Without []))
      | false => Within (n + 1) (Goes size d (Without (k :: ks))) := by
  rintro p items _ faces ⟨short, ahead, rfl⟩
  cases found : items.head?.any (Item.hasKind k) with
  | false =>
    obtain ⟨p', takeIf, faces'⟩ := faces.takeIf_other found
    have run : tryMatch k p = (.ok false, p') := by
      rw [tryMatch, takeIf]
      rfl
    rw [run]
    refine ⟨items, faces', Nat.le_refl _, short, fun t head => ?_, rfl⟩
    rw [head] at found
    exact List.not_mem_cons_of_ne_of_not_mem (by simpa [Item.hasKind] using found) (ahead t head)
  | true =>
    obtain _ | ⟨err | t, rest⟩ := items
    · cases found
    · cases found
    have passed : Item.hasKind k (.ok t) = true := found
    have kind : t.kind = k := by simpa [Item.hasKind] using passed
    obtain ⟨p', takeIf, faces'⟩ := faces.takeIf_cons passed
    have run : tryMatch k p = (.ok true, p') := by
      rw [tryMatch, takeIf]
      rfl
    rw [run]
    exact ⟨rest, faces', Nat.le_succ _, Nat.lt_of_succ_lt_succ short, without_nil rest,
      read_of_accept (accept t kind) rest⟩

theorem tracks_tryMatch (accept : ∀ t, t.kind = k → d.accept t = some g) :
    Tracks size (Goes size d (Without ks)) (tryMatch k) fun
      | true => Goes size g (Without [])
      | false => Goes size d (Without (k :: ks)) :=
  .of_within (fun _ => tracks_tryMatch_within accept) fun
    | _, true, _, _ => And.right
    | _, false, _, _ => And.right

section Choice

variable {x y : Parsing α}

theorem tracks_ifMatch_within (accept : ∀ t, t.kind = k → d.accept t = some g)
    (yes : Tracks size (Within n (Goes size g (Without []))) x K)
    (no : Tracks size (Within (n + 1) (Goes size d (Without (k :: ks)))) y K) :
    Tracks size (Within (n + 1) (Goes size d (Without ks))) (do if ← tryMatch k then x else y) K :=
  (tracks_tryMatch_within accept).bind fun
    | true => yes
    | false => no

theorem tracks_ifMatch (accept : ∀ t, t.kind = k → d.accept t = some g)
    (yes : Tracks size (Goes size g (Without [])) x K)
    (no : Tracks size (Goes size d (Without (k :: ks))) y K) :
    Tracks size (Goes size d (Without ks)) (do if ← tryMatch k then x else y) K :=
  (tracks_tryMatch accept).bind fun
    | true => yes
    | false => no

end Choice

end Tokens

section Loops

variable {α : Type} {size : Nat}

open Parsing

theorem tracks_rounds (R : Claim) : Tracks size R rounds fun n => Within n R := by
  intro p items out faces claim
  have enough : items.length < p.size + 1 := Nat.lt_succ_of_le (faces.size_eq ▸ faces.length_le)
  exact ⟨items, faces, Nat.le_refl _, enough, claim⟩

theorem tracks_gather {x : Parsing (Option α)} {R E : List α → Claim}
    (round : ∀ as n, Tracks size (Within (n + 1) (R as)) x fun
      | some a => Within n (R (as ++ [a]))
      | none => E as) (n : Nat) (as : List α) :
    Tracks size (Within n (R as)) (gather x n) fun bs => E (as ++ bs) := by
  -- Each round that gathers something has to take an item.
  induction n generalizing as with
  | zero => exact fun _ _ _ _ claim => absurd claim.1 (Nat.not_lt_zero _)
  | succ n ih =>
    refine (round as n).bind fun found => ?_
    cases found with
    | none => exact Tracks.pure.of_imp fun _ _ claim => by simpa using claim
    | some a =>
      refine (ih (as ++ [a])).bind fun bs => ?_
      exact Tracks.pure.of_imp fun _ _ claim => by simpa using claim

theorem tracks_many {x : Parsing (Option α)} {R E : List α → Claim}
    (round : ∀ as n, Tracks size (Within (n + 1) (R as)) x fun
      | some a => Within n (R (as ++ [a]))
      | none => E as) (as : List α) :
    Tracks size (R as) (many x) fun bs => E (as ++ bs) :=
  (tracks_rounds (R as)).bind fun n => tracks_gather round n as

theorem tracks_commaSeparated {x : Parsing α} {R : Claim} (between behind : List α → Draft)
    (first : Tracks size R x fun a => Goes size (behind [a]) (Without []))
    (comma : ∀ as t, t.kind = .comma → (behind as).accept t = some (between as))
    (next : ∀ as, Tracks size (Goes size (between as) (Without [])) x
      fun a => Goes size (behind (as ++ [a])) (Without [])) :
    Tracks size R (commaSeparated x) fun as => Goes size (behind as) (Without [.comma]) := by
  refine first.bind fun a => Tracks.bind (tracks_many
    (R := fun as => Goes size (behind as) (Without []))
    (E := fun as => Goes size (behind as) (Without [.comma])) (fun as n => ?_) [a]) fun _ => .pure
  refine tracks_ifMatch_within (comma as) ?_ (.of_bounded .pure)
  exact (next as).within.bind fun b => .pure

end Loops

end RowStore.Sql
