import Mathlib.Data.List.Chain
import Zaxonlite.Search.Statement

/-!
# The words of a statement

SQL is read word by word: a run of letters, digits and underscores is one word, and so is every other
character that is not white space. A name that is spliced between characters of the second kind is one word
wherever it stands, so that the words of a statement are those of its pieces.
-/

namespace Zaxonlite

namespace Search

open Shell (isWhitespace isAlphabetic isDigit)

def lex : List UInt8 → List (List UInt8)
  | [] => []
  | byte :: rest =>
    if isNameByte byte then
      match rest.head?.any isNameByte, lex rest with
      | true, word :: words => (byte :: word) :: words
      | _, words => [byte] :: words
    else if isWhitespace byte then lex rest
    else [byte] :: lex rest

/-- Two texts that do not run into one word. -/
def Apart (a b : List UInt8) : Prop :=
  ¬(a.getLast?.any isNameByte = true ∧ b.head?.any isNameByte = true)

instance (a b : List UInt8) : Decidable (Apart a b) :=
  inferInstanceAs (Decidable (¬_))

theorem lex_ne_nil {byte : UInt8} (h : isNameByte byte = true) (rest : List UInt8) :
    ∃ word words, lex (byte :: rest) = word :: words := by
  rw [lex, if_pos h]
  split
  · exact ⟨_, _, rfl⟩
  · exact ⟨_, _, rfl⟩

theorem lex_append {a b : List UInt8} (h : Apart a b) : lex (a ++ b) = lex a ++ lex b := by
  induction a with
  | nil => rfl
  | cons byte a ih =>
    cases a with
    | nil =>
      rw [List.singleton_append, lex, lex]
      by_cases hbyte : isNameByte byte = true
      · have hb : b.head?.any isNameByte = false := by
          rw [← Bool.not_eq_true]
          exact fun hb => h ⟨hbyte, hb⟩
        rw [if_pos hbyte, if_pos hbyte, hb]
        rfl
      · rw [if_neg hbyte, if_neg hbyte]
        split <;> rfl
    | cons next a =>
      have hrest : Apart (next :: a) b := by
        unfold Apart at h ⊢
        rwa [List.getLast?_cons_cons] at h
      have ih := ih hrest
      rw [List.cons_append, lex, lex, ih, List.cons_append, List.head?_cons, List.head?_cons]
      by_cases hbyte : isNameByte byte = true
      · rw [if_pos hbyte, if_pos hbyte]
        by_cases hnext : isNameByte next = true
        · obtain ⟨word, words, hlex⟩ := lex_ne_nil hnext a
          rw [hlex]
          simp only [Option.any_some, hnext, List.cons_append]
        · simp only [Option.any_some, hnext, List.cons_append]
      · rw [if_neg hbyte, if_neg hbyte]
        split <;> rfl

theorem lex_name {name : Name} (hne : name ≠ []) (hbytes : ∀ byte ∈ name, isNameByte byte = true) :
    lex name = [name] := by
  induction name with
  | nil => exact absurd rfl hne
  | cons byte name ih =>
    obtain ⟨hbyte, hrest⟩ := List.forall_mem_cons.1 hbytes
    rw [lex, if_pos hbyte]
    cases name with
    | nil => rfl
    | cons next name =>
      rw [ih (List.cons_ne_nil _ _) hrest]
      simp only [List.head?_cons, Option.any_some, hrest next List.mem_cons_self]

/-! ### Pieces -/

/-- The words of a piece, for the words of a statement inside it. -/
def Piece.lexed (names : Names) (inner : List (List UInt8)) : Piece → List (List UInt8)
  | .text words => lex words
  | .table ref => [ref.name names]
  | .mention => [names.table .fts]
  | .rowid => [asciiBytes "rowid"]
  | .column c => [names.column c]
  | .inner => inner

def Statement.lexed (statement : Statement) (names : Names) : List (List UInt8) :=
  match statement.wrapper with
  | none => statement.core.flatMap (Piece.lexed names [])
  | some wrapper => wrapper.flatMap (Piece.lexed names (statement.core.flatMap (Piece.lexed names [])))

def Piece.endsName : Piece → Bool
  | .text words => words.getLast?.any isNameByte
  | _ => true

def Piece.startsName : Piece → Bool
  | .text words => words.head?.any isNameByte
  | _ => true

/-- A text is not empty, and two pieces that follow each other do not run into one word. -/
def Spaced (block : Block) : Prop :=
  (∀ piece ∈ block, piece ≠ .text []) ∧
    block.IsChain fun a b => ¬(a.endsName = true ∧ b.startsName = true)

def IsWord (name : Name) : Prop :=
  name ≠ [] ∧ ∀ byte ∈ name, isNameByte byte = true

instance (name : Name) : Decidable (IsWord name) :=
  decidable_of_iff (name ≠ [] ∧ name.all isNameByte = true) (and_congr_right' List.all_eq_true)

def Piece.Worded (names : Names) : Piece → Prop
  | .table ref => IsWord (ref.name names)
  | .mention => IsWord (names.table .fts)
  | .column c => IsWord (names.column c)
  | _ => True

theorem isWord_rowid : IsWord (asciiBytes "rowid") := by
  decide

theorem Piece.lex_render {names : Names} {inner : List UInt8} {piece : Piece} (h : piece.Worded names) :
    lex (piece.render names inner) = piece.lexed names (lex inner) := by
  cases piece with
  | text words => rfl
  | inner => rfl
  | rowid => exact lex_name isWord_rowid.1 isWord_rowid.2
  | table ref => exact lex_name h.1 h.2
  | mention => exact lex_name h.1 h.2
  | column c => exact lex_name h.1 h.2

theorem Piece.render_ne_nil {names : Names} {inner : List UInt8} {piece : Piece} (h : piece.Worded names)
    (htext : piece ≠ .text []) (hinner : piece = .inner → inner ≠ []) :
    piece.render names inner ≠ [] := by
  cases piece with
  | text words =>
    intro heq
    exact htext (congrArg Piece.text heq)
  | inner => exact hinner rfl
  | rowid => exact List.cons_ne_nil _ _
  | table ref => exact h.1
  | mention => exact h.1
  | column c => exact h.1

theorem lex_renderBlock {names : Names} {inner : List UInt8} {block : Block} (hspaced : Spaced block)
    (hworded : ∀ piece ∈ block, piece.Worded names) (hinner : .inner ∈ block → inner ≠ []) :
    lex (renderBlock names inner block) = block.flatMap (Piece.lexed names (lex inner)) := by
  induction block with
  | nil => rfl
  | cons a block ih =>
    obtain ⟨hwordedA, hworded⟩ := List.forall_mem_cons.1 hworded
    obtain ⟨htexts, hchain⟩ := hspaced
    obtain ⟨htextA, htexts⟩ := List.forall_mem_cons.1 htexts
    have hrest := ih ⟨htexts, hchain.tail⟩ hworded fun h => hinner (List.mem_cons_of_mem _ h)
    rw [renderBlock, List.flatMap_cons, List.flatMap_cons, lex_append, Piece.lex_render hwordedA]
    · exact congrArg _ hrest
    · cases block with
      | nil => exact fun h => by cases h.2
      | cons b block =>
        have hapart := (List.isChain_cons_cons.1 hchain).1
        have hneB : b.render names inner ≠ [] := by
          refine Piece.render_ne_nil (hworded b List.mem_cons_self) (htexts b List.mem_cons_self) ?_
          rintro rfl
          exact hinner (List.mem_cons_of_mem _ List.mem_cons_self)
        rintro ⟨hlast, hhead⟩
        refine hapart ⟨?_, ?_⟩
        · cases a with
          | text words => exact hlast
          | _ => rfl
        · rw [List.flatMap_cons, List.head?_append_of_ne_nil _ hneB] at hhead
          cases b with
          | text words => exact hhead
          | _ => rfl

/-! ### Parameters -/

/-- The numbers behind the question marks; `after` says whether the word before was one. -/
def parametersFrom (after : Bool) : List (List UInt8) → List ℕ
  | [] => []
  | word :: rest =>
    (if after then [Decimal.value word] else []) ++ parametersFrom (decide (word = [63])) rest

def parameters (text : List UInt8) : List ℕ :=
  parametersFrom false (lex text)

theorem parametersFrom_append {after : Bool} {a b : List (List UInt8)} (hlast : a.getLast? ≠ some [63]) :
    parametersFrom after (a ++ b) =
      parametersFrom after a ++ parametersFrom (if a = [] then after else false) b := by
  induction a generalizing after with
  | nil => rfl
  | cons word a ih =>
    rw [List.cons_append, parametersFrom, parametersFrom, List.append_assoc, if_neg (List.cons_ne_nil _ _)]
    cases a with
    | nil =>
      have hword : decide (word = [63]) = false := decide_eq_false fun heq => hlast (by rw [heq]; rfl)
      rw [hword]
      rfl
    | cons next a =>
      rw [List.getLast?_cons_cons] at hlast
      rw [ih hlast, if_neg (List.cons_ne_nil _ _)]

def Piece.parameters (inner : List ℕ) : Piece → List ℕ
  | .text words => Search.parameters words
  | .inner => inner
  | _ => []

/-- The text of a piece does not end in a question mark. -/
def Piece.Whole : Piece → Prop
  | .text words => (lex words).getLast? ≠ some [63]
  | _ => True

instance : DecidablePred Piece.Whole
  | .text words => inferInstanceAs (Decidable ((lex words).getLast? ≠ some [63]))
  | .table _ => isTrue trivial
  | .mention => isTrue trivial
  | .rowid => isTrue trivial
  | .column _ => isTrue trivial
  | .inner => isTrue trivial

theorem IsWord.ne_mark {name : Name} (h : IsWord name) : name ≠ [63] := by
  rintro rfl
  exact absurd (h.2 63 List.mem_cons_self) (by decide)

/-- The parameters of a text are those of its pieces. -/
theorem parametersFrom_lexed {names : Names} {inner : List (List UInt8)} {block : Block}
    (hworded : ∀ piece ∈ block, piece.Worded names) (hwhole : ∀ piece ∈ block, piece.Whole)
    (hinner : inner.getLast? ≠ some [63]) :
    parametersFrom false (block.flatMap (Piece.lexed names inner)) =
      block.flatMap (Piece.parameters (parametersFrom false inner)) ∧
    (block.flatMap (Piece.lexed names inner)).getLast? ≠ some [63] := by
  induction block with
  | nil => exact ⟨rfl, (Option.some_ne_none _).symm⟩
  | cons a block ih =>
    obtain ⟨hwordedA, hworded⟩ := List.forall_mem_cons.1 hworded
    obtain ⟨hwholeA, hwhole⟩ := List.forall_mem_cons.1 hwhole
    obtain ⟨hparameters, hlast⟩ := ih hworded hwhole
    have hone {name : Name} (h : IsWord name) :
        parametersFrom false [name] = [] ∧ [name].getLast? ≠ some [63] :=
      ⟨rfl, fun heq => h.ne_mark (Option.some.inj heq)⟩
    have hpiece : parametersFrom false (a.lexed names inner) =
        a.parameters (parametersFrom false inner) ∧ (a.lexed names inner).getLast? ≠ some [63] := by
      cases a with
      | text words => exact ⟨rfl, hwholeA⟩
      | inner => exact ⟨rfl, hinner⟩
      | rowid => exact hone isWord_rowid
      | table ref => exact hone hwordedA
      | mention => exact hone hwordedA
      | column c => exact hone hwordedA
    rw [List.flatMap_cons, List.flatMap_cons, parametersFrom_append hpiece.2, hpiece.1, ite_self, hparameters]
    refine ⟨rfl, ?_⟩
    rw [List.getLast?_append]
    intro heq
    rcases Option.or_eq_some_iff.1 heq with h | ⟨-, h⟩
    · exact hlast h
    · exact hpiece.2 h

/-! ### Structure -/

/-- What the grammar of SQL sees of a word. -/
inductive Shape where
  | name
  | word (word : List UInt8)
  deriving DecidableEq

/-- The first byte is a letter or an underscore. -/
def StartsName (name : Name) : Prop :=
  (name.head?.any fun first => isNameByte first && !isDigit first) = true

section Shapes

variable (reserved : Name → Bool)

/-- A word that starts like a name is one unless it is reserved. -/
def shape (word : List UInt8) : Shape :=
  if (word.head?.any fun first => isNameByte first && !isDigit first) && !reserved word then .name
  else .word word

/-- The shapes of a piece, a name wherever one is filled in. -/
def Piece.shapes (inner : List Shape) : Piece → List Shape
  | .text words => (lex words).map (shape reserved)
  | .table (.cte name) => [shape reserved name]
  | .table (.role _) => [.name]
  | .mention => [.name]
  | .rowid => [shape reserved (asciiBytes "rowid")]
  | .column _ => [.name]
  | .inner => inner

def Statement.shapes (statement : Statement) : List Shape :=
  match statement.wrapper with
  | none => statement.core.flatMap (Piece.shapes reserved [])
  | some wrapper =>
    wrapper.flatMap (Piece.shapes reserved (statement.core.flatMap (Piece.shapes reserved [])))

end Shapes

def Piece.filled (names : Names) : Piece → Option Name
  | .table (.role r) => some (names.table r)
  | .mention => some (names.table .fts)
  | .column c => some (names.column c)
  | _ => none

def Statement.filled (statement : Statement) (names : Names) : List Name :=
  (statement.core ++ statement.wrapper.getD []).filterMap (Piece.filled names)

section Structure

variable {reserved : Name → Bool} {names : Names}

theorem shape_eq_name {name : Name} (h : StartsName name) :
    shape reserved name = .name ↔ reserved name = false := by
  unfold shape
  unfold StartsName at h
  rw [h, Bool.true_and]
  cases reserved name with
  | false => exact iff_of_true rfl rfl
  | true => exact iff_of_false Shape.noConfusion Bool.noConfusion

theorem Piece.length_shapes {inner : List (List UInt8)} {shapes : List Shape}
    (h : inner.length = shapes.length) (piece : Piece) :
    ((piece.lexed names inner).map (shape reserved)).length = (piece.shapes reserved shapes).length := by
  cases piece with
  | text words => rfl
  | table ref => cases ref <;> rfl
  | inner => exact (List.length_map _).trans h
  | _ => rfl

theorem Piece.map_lexed_iff {inner : List (List UInt8)} {shapes : List Shape} {piece : Piece}
    (hstarts : ∀ name ∈ piece.filled names, StartsName name) :
    (piece.lexed names inner).map (shape reserved) = piece.shapes reserved shapes ↔
      (∀ name ∈ piece.filled names, reserved name = false) ∧
        (piece = .inner → inner.map (shape reserved) = shapes) := by
  have hname {name : Name} (h : StartsName name) :
      [name].map (shape reserved) = [Shape.name] ↔ ∀ given ∈ some name, reserved given = false := by
    rw [List.map_singleton, List.singleton_inj, shape_eq_name h]
    exact ⟨fun h _ hgiven => Option.some.inj hgiven ▸ h, fun h => h name rfl⟩
  have hfixed {same : Prop} (hsame : same) (hnot : piece ≠ .inner) (hnone : piece.filled names = none) :
      same ↔ (∀ name ∈ piece.filled names, reserved name = false) ∧
        (piece = .inner → inner.map (shape reserved) = shapes) := by
    rw [hnone]
    exact iff_of_true hsame ⟨fun _ h => absurd h.symm (Option.some_ne_none _), fun h => absurd h hnot⟩
  have hplace {name : Name} (hsome : piece.filled names = some name) (hnot : piece ≠ .inner) :
      [name].map (shape reserved) = [Shape.name] ↔
        (∀ given ∈ piece.filled names, reserved given = false) ∧
          (piece = .inner → inner.map (shape reserved) = shapes) := by
    rw [hname (hstarts name hsome), hsome]
    exact ⟨fun h => ⟨h, fun h => absurd h hnot⟩, And.left⟩
  cases piece with
  | text words => exact hfixed rfl Piece.noConfusion rfl
  | rowid => exact hfixed rfl Piece.noConfusion rfl
  | mention => exact hplace rfl Piece.noConfusion
  | column c => exact hplace rfl Piece.noConfusion
  | inner =>
    exact ⟨fun h => ⟨fun _ h => absurd h.symm (Option.some_ne_none _), fun _ => h⟩, fun h => h.2 rfl⟩
  | table ref =>
    cases ref with
    | cte name => exact hfixed rfl Piece.noConfusion rfl
    | role r => exact hplace rfl Piece.noConfusion

theorem map_lexed_iff {inner : List (List UInt8)} {shapes : List Shape}
    (hlength : inner.length = shapes.length) (block : Block) :
    (block.flatMap (Piece.lexed names inner)).map (shape reserved) =
        block.flatMap (Piece.shapes reserved shapes) ↔
      ∀ piece ∈ block,
        (piece.lexed names inner).map (shape reserved) = piece.shapes reserved shapes := by
  induction block with
  | nil => exact iff_of_true rfl fun _ h => absurd h List.not_mem_nil
  | cons piece block ih =>
    rw [List.flatMap_cons, List.flatMap_cons, List.map_append, List.forall_mem_cons, ← ih]
    constructor
    · exact fun h => List.append_inj h (Piece.length_shapes hlength piece)
    · rintro ⟨hpiece, hblock⟩
      rw [hpiece, hblock]

theorem length_flatMap_shapes (block : Block) :
    (block.flatMap (Piece.lexed names [])).length = (block.flatMap (Piece.shapes reserved [])).length := by
  induction block with
  | nil => rfl
  | cons piece block ih =>
    have hpiece : (piece.lexed names []).length = (piece.shapes reserved []).length :=
      (List.length_map _).symm.trans (Piece.length_shapes rfl piece)
    rw [List.flatMap_cons, List.flatMap_cons, List.length_append, List.length_append, hpiece, ih]

/-- **A statement has its structure if and only if none of the names in it is reserved.** -/
theorem Statement.map_lexed_iff {statement : Statement}
    (hstarts : ∀ name ∈ statement.filled names, StartsName name)
    (hinner : ∀ wrapper ∈ statement.wrapper, .inner ∈ wrapper) :
    (statement.lexed names).map (shape reserved) = statement.shapes reserved ↔
      ∀ name ∈ statement.filled names, reserved name = false := by
  have hfilled {piece : Piece} {name : Name}
      (hpiece : piece ∈ statement.core ++ statement.wrapper.getD []) (hname : name ∈ piece.filled names) :
      name ∈ statement.filled names :=
    List.mem_filterMap.2 ⟨piece, hpiece, hname⟩
  have hcore : (statement.core.flatMap (Piece.lexed names [])).map (shape reserved) =
      statement.core.flatMap (Piece.shapes reserved []) ↔
        ∀ piece ∈ statement.core, ∀ name ∈ piece.filled names, reserved name = false := by
    rw [Search.map_lexed_iff rfl]
    refine forall₂_congr fun piece hpiece => ?_
    rw [Piece.map_lexed_iff fun name h => hstarts name (hfilled (List.mem_append_left _ hpiece) h)]
    exact ⟨And.left, fun h => ⟨h, fun _ => rfl⟩⟩
  have hall : (∀ name ∈ statement.filled names, reserved name = false) ↔
      ∀ piece ∈ statement.core ++ statement.wrapper.getD [], ∀ name ∈ piece.filled names,
        reserved name = false := by
    constructor
    · exact fun h piece hpiece name hname => h name (hfilled hpiece hname)
    · intro h name hname
      obtain ⟨piece, hpiece, hname⟩ := List.mem_filterMap.1 hname
      exact h piece hpiece name hname
  rw [hall]
  unfold Statement.lexed Statement.shapes
  cases hwrapper : statement.wrapper with
  | none =>
    rw [Option.getD_none, List.append_nil]
    exact hcore
  | some wrapper =>
    rw [hwrapper, Option.getD_some] at hfilled
    dsimp only
    rw [Option.getD_some, List.forall_mem_append, ← hcore, Search.map_lexed_iff (length_flatMap_shapes _)]
    constructor
    · intro h
      have hpieces (piece : Piece) (hpiece : piece ∈ wrapper) :=
        (Piece.map_lexed_iff fun name hname =>
          hstarts name (hfilled (List.mem_append_right _ hpiece) hname)).1 (h piece hpiece)
      exact ⟨(hpieces .inner (hinner wrapper hwrapper)).2 rfl,
        fun piece hpiece => (hpieces piece hpiece).1⟩
    · rintro ⟨hinside, hpieces⟩ piece hpiece
      exact (Piece.map_lexed_iff fun name hname =>
        hstarts name (hfilled (List.mem_append_right _ hpiece) hname)).2
          ⟨hpieces piece hpiece, fun _ => hinside⟩

end Structure

end Search

end Zaxonlite
