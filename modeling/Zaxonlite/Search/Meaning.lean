import Mathlib.Data.List.Find
import Zaxonlite.Search.Words

/-!
# The meaning of a search statement

A statement is run over a database by looking its names up: first among its own common table expressions,
all of which are in scope in each other, then in the database. What it is meant to compute is the same
without the lookup, from the contents of the request's tables. The two agree when no name is taken for
something else.
-/

namespace Zaxonlite

namespace Search

variable {Rows Col : Type}

structure Table (Rows Col : Type) where
  rows : Rows
  column : Name → Option Col

/-- The tables of a database by their folded names; the columns of a table likewise. -/
abbrev Database (Rows Col : Type) := Name → Option (Table Rows Col)

/-- A piece with its name resolved. -/
inductive Mark (Col : Type) where
  | text (words : List UInt8)
  | table
  | mention
  | rowid
  | column (col : Col)
  | inner

/-- What a select returns, from its text and the rows of its tables in the order they are named. -/
abbrev Engine (Rows Col : Type) := List (Mark Col) → List Rows → Rows

/-- What the names of a block stand for. -/
structure Scope (Rows Col : Type) where
  table : Ref → Option Rows
  column : Column → Option Col
  /-- The full-text table is called `rowid`, and so is the column that stands for it in expressions. -/
  hidesRowid : Bool

def Scope.mark (scope : Scope Rows Col) : Piece → Option (Mark Col)
  | .text words => some (.text words)
  | .table _ => some .table
  | .mention => some .mention
  | .rowid => some (if scope.hidesRowid then .mention else .rowid)
  | .column c => (scope.column c).map .column
  | .inner => some .inner

def Piece.ref : Piece → Option Ref
  | .table ref => some ref
  | _ => none

/-- The rows of a block; nothing where a name stands for nothing. -/
def Scope.select (engine : Engine Rows Col) (scope : Scope Rows Col) (inner : List Rows) (block : Block) :
    Option Rows := do
  let tables ← (block.filterMap Piece.ref).mapM scope.table
  let marks ← block.mapM scope.mark
  some (engine marks (inner ++ tables))

section Run

variable (engine : Engine Rows Col) (db : Database Rows Col) (statement : Statement) (names : Names)

/-- Whether the full-text table hides the row IDs. -/
def Names.hidesRowid : Bool :=
  fold (names.table .fts) = asciiBytes "rowid"

/-- The rows behind a name inside the statement. Every lookup of a common table expression uses one of
`fuel`: a circle of them has no rows. -/
def lookup : ℕ → Name → Option Rows
  | 0, _ => none
  | fuel + 1, name =>
    match statement.ctes.find? fun cte => fold cte.1 = fold name with
    | some cte =>
      Scope.select engine ⟨fun ref => lookup fuel (ref.name names), fun _ => none, names.hidesRowid⟩ []
        cte.2
    | none => (db (fold name)).map Table.rows

/-- The rows of the statement without its join. -/
def runCore : Option Rows :=
  Scope.select engine
    ⟨fun ref => lookup engine db statement names (statement.ctes.length + 1) (ref.name names),
      fun _ => none, names.hidesRowid⟩ [] statement.body

def metadataColumn (column : Column) : Option Col :=
  (db (fold (names.table .metadata))).bind fun table => table.column (fold (names.column column))

/-- The rows of the statement. The join is outside the scope of the common table expressions. -/
def run : Option Rows :=
  match statement.wrapper with
  | none => runCore engine db statement names
  | some wrapper => do
    let rows ← runCore engine db statement names
    Scope.select engine
      ⟨fun ref => (db (fold (ref.name names))).map Table.rows, metadataColumn db names, names.hidesRowid⟩
      [rows] wrapper

end Run

/-! ### What is meant -/

/-- The contents of the tables of a request. -/
structure Contents (Rows Col : Type) where
  table : Role → Option Rows
  column : Column → Option Col

section Meant

variable (engine : Engine Rows Col) (contents : Contents Rows Col) (statement : Statement) (hides : Bool)

/-- The rows behind a reference. -/
def meantFrom : ℕ → Ref → Option Rows
  | 0, _ => none
  | fuel + 1, .cte name =>
    match statement.ctes.find? fun cte => cte.1 = name with
    | some cte => Scope.select engine ⟨meantFrom fuel, fun _ => none, hides⟩ [] cte.2
    | none => none
  | _ + 1, .role role => contents.table role

def meantCoreFrom : Option Rows :=
  Scope.select engine
    ⟨meantFrom engine contents statement hides (statement.ctes.length + 1), fun _ => none, hides⟩ []
    statement.body

/-- The rows of a statement whose tables are known; `hides` says whether the full-text table hides its row
IDs. -/
def meaningFrom : Option Rows :=
  match statement.wrapper with
  | none => meantCoreFrom engine contents statement hides
  | some wrapper => do
    let rows ← meantCoreFrom engine contents statement hides
    Scope.select engine ⟨fun | .cte _ => none | .role role => contents.table role, contents.column, hides⟩
      [rows] wrapper

/-- The rows that the statement is meant to return. -/
def meaning : Option Rows :=
  meaningFrom engine contents statement false

end Meant

/-- What a database holds for a request. -/
def contentsOf (db : Database Rows Col) (names : Names) : Contents Rows Col where
  table role := (db (fold (names.table role))).map Table.rows
  column := metadataColumn db names

/-! ### Where no name is captured -/

/-- The blocks in which the common table expressions are in scope. -/
def Statement.blocks (statement : Statement) : List Block :=
  statement.body :: statement.ctes.map Prod.snd

/-- No table of the request has the name of a common table expression where it is in scope. -/
def Statement.Resolves (statement : Statement) (names : Names) : Prop :=
  ∀ block ∈ statement.blocks, ∀ role, .table (.role role) ∈ block → ∀ cte ∈ statement.ctes,
    fold cte.1 ≠ fold (names.table role)

/-- The statement refers to its common table expressions in their own spelling, and the join to none. -/
structure Statement.Closed (statement : Statement) : Prop where
  folded : ∀ cte ∈ statement.ctes, fold cte.1 = cte.1
  refs : ∀ block ∈ statement.blocks, ∀ name, .table (.cte name) ∈ block →
    ∃ cte ∈ statement.ctes, cte.1 = name
  wrapper : ∀ block ∈ statement.wrapper, ∀ name, .table (.cte name) ∉ block

/-- The contents are what the database holds under the names, as far as the statement asks for them. -/
structure Holds (contents : Contents Rows Col) (db : Database Rows Col) (statement : Statement)
    (names : Names) : Prop where
  table : ∀ block ∈ statement.blocks ++ statement.wrapper.toList, ∀ role,
    .table (.role role) ∈ block → contents.table role = (db (fold (names.table role))).map Table.rows
  column : ∀ block ∈ statement.wrapper, ∀ c, .column c ∈ block →
    contents.column c = metadataColumn db names c

theorem holds_contentsOf (db : Database Rows Col) (statement : Statement) (names : Names) :
    Holds (contentsOf db names) db statement names :=
  ⟨fun _ _ _ _ => rfl, fun _ _ _ _ => rfl⟩

theorem mapM_congr {α β : Type} {f g : α → Option β} {l : List α} (h : ∀ a ∈ l, f a = g a) :
    l.mapM f = l.mapM g := by
  induction l with
  | nil => rfl
  | cons a l ih =>
    obtain ⟨ha, hl⟩ := List.forall_mem_cons.1 h
    rw [List.mapM_cons, List.mapM_cons, ha, ih hl]

/-- A block selects the same in two scopes that agree on what it names. -/
theorem select_congr {engine : Engine Rows Col} {scope scope' : Scope Rows Col} {inner : List Rows}
    {block : Block} (htable : ∀ ref, .table ref ∈ block → scope.table ref = scope'.table ref)
    (hcolumn : ∀ c, .column c ∈ block → scope.column c = scope'.column c)
    (hrowid : scope.hidesRowid = scope'.hidesRowid) :
    scope.select engine inner block = scope'.select engine inner block := by
  have htables : (block.filterMap Piece.ref).mapM scope.table =
      (block.filterMap Piece.ref).mapM scope'.table := by
    refine mapM_congr fun ref href => ?_
    obtain ⟨piece, hpiece, heq⟩ := List.mem_filterMap.1 href
    cases piece with
    | table given =>
      obtain rfl := Option.some.inj heq
      exact htable given hpiece
    | _ => cases heq
  have hmarks : block.mapM scope.mark = block.mapM scope'.mark := by
    refine mapM_congr fun piece hpiece => ?_
    cases piece with
    | rowid => rw [Scope.mark, Scope.mark, hrowid]
    | column c => rw [Scope.mark, Scope.mark, hcolumn c hpiece]
    | _ => rfl
  rw [Scope.select, Scope.select, htables, hmarks]

section Uncaptured

variable {engine : Engine Rows Col} {db : Database Rows Col} {statement : Statement} {names : Names}
  {contents : Contents Rows Col} (hclosed : statement.Closed) (hresolves : statement.Resolves names)
  (hholds : Holds contents db statement names)

include hclosed hresolves hholds

/-- What a block names is looked up to what it refers to. -/
theorem lookup_eq_meant {fuel : ℕ} {block : Block} {ref : Ref} (hblock : block ∈ statement.blocks)
    (href : .table ref ∈ block) :
    lookup engine db statement names fuel (ref.name names) =
      meantFrom engine contents statement names.hidesRowid fuel ref := by
  induction fuel generalizing block ref with
  | zero => rfl
  | succ fuel ih =>
    unfold lookup
    cases ref with
    | cte name =>
      obtain ⟨known, hknown, rfl⟩ := hclosed.refs block hblock name href
      have hfind : (statement.ctes.find? fun cte => fold cte.1 = fold known.1) =
          statement.ctes.find? fun cte => cte.1 = known.1 := by
        refine List.find?_congr fun cte hcte => ?_
        rw [hclosed.folded cte hcte, hclosed.folded known hknown]
      unfold meantFrom
      rw [Ref.name, hfind]
      cases hfound : statement.ctes.find? fun cte => cte.1 = known.1 with
      | none =>
        have := List.find?_eq_none.1 hfound known hknown
        exact absurd (decide_eq_true rfl) this
      | some cte =>
        have hbody : cte.2 ∈ statement.blocks :=
          List.mem_cons_of_mem _ (List.mem_map_of_mem (List.mem_of_find?_eq_some hfound))
        exact select_congr (fun ref href => ih hbody href) (fun _ _ => rfl) rfl
    | role role =>
      have hfind : (statement.ctes.find? fun cte => fold cte.1 = fold (names.table role)) = none := by
        rw [List.find?_eq_none]
        intro cte hcte
        rw [decide_eq_true_iff]
        exact hresolves block hblock role href cte hcte
      unfold meantFrom
      rw [Ref.name, hfind, hholds.table block (List.mem_append_left _ hblock) role href]

/-- **Where no table is captured, the statement computes from the tables of the request.** -/
theorem run_eq_meaningFrom :
    run engine db statement names = meaningFrom engine contents statement names.hidesRowid := by
  have hcore : runCore engine db statement names =
      meantCoreFrom engine contents statement names.hidesRowid := by
    have hbody : statement.body ∈ statement.blocks := List.mem_cons_self
    exact select_congr (fun ref href => lookup_eq_meant hclosed hresolves hholds hbody href)
      (fun _ _ => rfl) rfl
  unfold run meaningFrom
  cases hwrapper : statement.wrapper with
  | none => exact hcore
  | some wrapper =>
    have hjoin : wrapper ∈ statement.blocks ++ statement.wrapper.toList :=
      List.mem_append_right _ (by rw [hwrapper]; exact List.mem_singleton_self _)
    dsimp only
    rw [hcore]
    refine congrArg _ (funext fun rows => select_congr (fun ref href => ?_) (fun c hc => ?_) rfl)
    · cases ref with
      | cte name => exact absurd href (hclosed.wrapper wrapper hwrapper name)
      | role role => exact (hholds.table wrapper hjoin role href).symm
    · exact (hholds.column wrapper hwrapper c hc).symm

end Uncaptured

end Search

end Zaxonlite
