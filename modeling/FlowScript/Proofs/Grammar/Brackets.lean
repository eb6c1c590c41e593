import FlowScript.Proofs.Grammar.Phrase
import Mathlib.Data.List.Basic

/-!
Brackets and last tokens in the grammar. Main statements: in a sentence every kind of bracket is
opened as often as it is closed, and no sentence ends in an operator that wants an operand.
-/
namespace FlowScript.Grammar

open Token (Kind)

def brackets : List (Symbol × Symbol) :=
  [(.leftParen, .rightParen), (.leftBrace, .rightBrace), (.leftBracket, .rightBracket)]

def isSymbol (s : Symbol) : Kind → Bool
  | .symbol t => t = s
  | _ => false

def net (opening closing : Symbol) (ts : List Kind) : Int :=
  ts.countP (isSymbol opening) - ts.countP (isSymbol closing)

variable {opening closing s : Symbol} {ts us : List Kind} {k : Kind}

theorem net_append (opening closing : Symbol) (ts us : List Kind) :
    net opening closing (ts ++ us) = net opening closing ts + net opening closing us := by
  simp only [net, List.countP_append]
  omega

theorem net_cons (opening closing : Symbol) (k : Kind) (ts : List Kind) :
    net opening closing (k :: ts) = net opening closing [k] + net opening closing ts :=
  net_append opening closing [k] ts

def Balanced (ts : List Kind) : Prop := ∀ p ∈ brackets, net p.1 p.2 ts = 0

instance (ts : List Kind) : Decidable (Balanced ts) :=
  inferInstanceAs (Decidable (∀ p ∈ brackets, net p.1 p.2 ts = 0))

theorem balanced_nil : Balanced [] := fun _ _ => rfl

theorem Balanced.append (left : Balanced ts) (right : Balanced us) : Balanced (ts ++ us) := by
  intro p listed
  rw [net_append, left p listed, right p listed, Int.add_zero]

theorem Balanced.cons (first : Balanced [k]) (later : Balanced ts) : Balanced (k :: ts) :=
  first.append later

theorem Balanced.enclose {p : Symbol × Symbol} (pair : p ∈ brackets) (inner : Balanced ts) :
    Balanced (.symbol p.1 :: ts ++ [.symbol p.2]) := by
  intro q listed
  have ends : net q.1 q.2 [.symbol p.1] + net q.1 q.2 [.symbol p.2] = 0 := by
    revert p q
    decide
  rw [net_append, net_cons, inner q listed, Int.add_zero, ends]

theorem balanced_separated (separator : Balanced [.symbol s]) {pieces : List (List Kind)}
    (each : ∀ piece ∈ pieces, Balanced piece) : Balanced (separated s pieces) := by
  induction pieces with
  | nil => exact balanced_nil
  | cons first rest ih =>
    rw [List.forall_mem_cons] at each
    cases rest with
    | nil =>
      rw [separated_single]
      exact each.1
    | cons second rest =>
      rw [separated_cons]
      exact each.1.append (separator.cons (ih each.2))

theorem balanced_assign (op : AssignOp) : Balanced [.symbol op.sign] := by
  cases op <;> decide

theorem balanced_unary (op : UnaryOp) : Balanced [.symbol op.sign] := by
  cases op <;> decide

theorem balanced_binary (op : BinaryOp) : Balanced [.symbol op.sign] := by
  cases op <;> decide

theorem Phrase.balanced {n : Nat} {e : Expr} (phrase : Phrase n ts e) : Balanced ts := by
  induction phrase with
  | number | text | bool | globalVar | localVar => exact fun _ _ => rfl
  | group _ inner => exact inner.enclose (p := (.leftParen, .rightParen)) (by decide)
  | call name _ each =>
    have args := balanced_separated (s := .comma) (by decide) (List.forall_mem_map.mpr each)
    have name : Balanced [.name name] := fun _ _ => rfl
    exact name.cons (args.enclose (p := (.leftParen, .rightParen)) (by decide))
  | array _ each =>
    have items := balanced_separated (s := .comma) (by decide) (List.forall_mem_map.mpr each)
    exact items.enclose (p := (.leftBrace, .rightBrace)) (by decide)
  | member _ _ outer inner =>
    have key := inner.enclose (p := (.leftBracket, .rightBracket)) (by decide)
    simpa using outer.append key
  | trailing _ _ operand => exact operand.append (balanced_unary _)
  | leading _ _ operand => exact (balanced_unary _).cons operand
  | power _ _ left right => exact left.append ((balanced_binary .power).cons right)
  | binary _ _ _ left right => exact left.append ((balanced_binary _).cons right)
  | assign op _ _ left right => exact left.append ((balanced_assign op).cons right)
  | tighter _ phrase => exact phrase

theorem Statement.balanced {es : List Expr} (statement : Statement ts es) : Balanced ts := by
  cases statement with
  | empty => exact balanced_nil
  | expr phrase => exact phrase.balanced

theorem Sentence.balanced {p : Program} (sentence : Sentence ts p) : Balanced ts := by
  obtain ⟨statements, each, rfl, _⟩ := sentence
  apply balanced_separated (by decide)
  exact List.forall_mem_map.mpr fun q listed => (each q listed).balanced

def endsPhrase : Kind → Bool
  | .symbol s => [.rightParen, .rightBrace, .rightBracket, .plusPlus, .minusMinus].contains s
  | _ => true

theorem Phrase.last {n : Nat} {e : Expr} (phrase : Phrase n ts e) :
    ∃ k, ts.getLast? = some k ∧ endsPhrase k = true := by
  induction phrase with
  | number | text | bool | globalVar | localVar => exact ⟨_, rfl, rfl⟩
  | group | call | array | member => exact ⟨_, List.getLast?_concat, rfl⟩
  | @trailing op side =>
    refine ⟨_, List.getLast?_concat, ?_⟩
    cases op with
    | postIncrement | postDecrement => rfl
    | _ => cases side
  | leading _ _ operand =>
    obtain ⟨k, last, ends⟩ := operand
    exact ⟨k, by simp [List.getLast?_cons, last], ends⟩
  | power _ _ _ right | binary _ _ _ _ right | assign _ _ _ _ right =>
    obtain ⟨k, last, ends⟩ := right
    exact ⟨k, by simp [List.getLast?_append, List.getLast?_cons, last], ends⟩
  | tighter _ phrase => exact phrase

theorem Sentence.last {p : Program} (sentence : Sentence ts p) (last : ts.getLast? = some k) :
    endsPhrase k = true ∨ k = .symbol .semicolon := by
  obtain ⟨statements, each, rfl, -⟩ := sentence
  induction statements with
  | nil => cases last
  | cons q rest ih =>
    rw [List.forall_mem_cons] at each
    cases rest with
    | nil =>
      rw [List.map_singleton, separated_single] at last
      obtain ⟨us, es⟩ := q
      cases each.1 with
      | empty => cases last
      | expr phrase =>
        obtain ⟨j, there, ends⟩ := phrase.last
        cases there.symm.trans last
        exact .inl ends
    | cons r rest =>
      rw [List.map_cons, List.map_cons, separated_cons, List.getLast?_append, List.getLast?_cons,
        Option.some_or] at last
      cases tail : (separated .semicolon (r.1 :: rest.map (·.1))).getLast? with
      | none =>
        rw [tail] at last
        cases last
        exact .inr rfl
      | some j =>
        rw [tail] at last
        cases last
        exact ih each.2 tail

end FlowScript.Grammar
