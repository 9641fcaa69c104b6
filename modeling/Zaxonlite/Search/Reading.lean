import Zaxonlite.Search.Text

/-!
# How a plan is read

The words that SQL reads in the text of a plan are those of its statement, every name one word, and the
parameters among them are those that the plan binds. This holds for every accepted request.
-/

namespace Zaxonlite

namespace Search

variable {R : Type} {tests : WeightTests R} {request : Request R} {p : Plan R}

/-! ### The names of a request -/

/-- The names of the common table expressions that the statement of a request brings along. -/
def Request.cteNames (request : Request R) : List Name :=
  match request.ftsTable, request.vecTable, request.fusion with
  | some _, none, _ => []
  | none, _, _ => [asciiBytes "coarse"]
  | some _, some _, .rrf =>
    [asciiBytes "lexical", asciiBytes "coarse", asciiBytes "reranked", asciiBytes "semantic",
      asciiBytes "contributions"]
  | some _, some _, .dbsf =>
    [asciiBytes "lexical_raw", asciiBytes "lexical", asciiBytes "coarse", asciiBytes "reranked",
      asciiBytes "semantic_raw", asciiBytes "semantic", asciiBytes "contributions"]

def Request.table (request : Request R) : Role → Option Name
  | .fts => request.ftsTable
  | .vec => request.vecTable
  | .metadata => request.metadataTable

theorem names_table (role : Role) : request.names.table role = (request.table role).getD [] := by
  cases role <;> rfl

theorem names_selected {place : ℕ} (h : place < request.metadataColumns.length) :
    request.names.column (.selected place) = request.metadataColumns[place] := by
  change request.metadataColumns.getD place [] = _
  rw [List.getD_eq_getElem?_getD, List.getElem?_eq_getElem h, Option.getD_some]

def Request.Asks (request : Request R) : Prop :=
  request.ftsTable ≠ none ∨ request.vecTable ≠ none

theorem asks_of_plan (h : plan tests request = .ok p) : request.Asks := by
  by_contra hnone
  rw [Request.Asks, not_or, not_not, not_not] at hnone
  unfold plan at h
  cases hvalid : validate tests request with
  | error error =>
    rw [hvalid] at h
    cases h
  | ok candidates =>
    rw [hvalid, hnone.1, hnone.2] at h
    cases h

theorem base_mem (request : Request R) : request.base ∈ bases := by
  unfold Request.base
  split
  · exact List.mem_cons_self
  · exact List.mem_cons_of_mem _ List.mem_cons_self
  · exact List.mem_cons_of_mem _ (List.mem_cons_of_mem _ List.mem_cons_self)
  · exact List.mem_cons_of_mem _ (List.mem_cons_of_mem _ (List.mem_cons_of_mem _ List.mem_cons_self))

theorem base_sound (request : Request R) : Sound request.base :=
  bases_sound _ (base_mem request)

theorem map_ctes (request : Request R) : request.statement.ctes.map Prod.fst = request.cteNames := by
  change request.base.1.ctes.map Prod.fst = _
  unfold Request.base Request.cteNames
  cases request.ftsTable <;> cases request.vecTable <;> cases request.fusion <;> rfl

theorem wrapper_none (h : request.metadataTable = none) : request.statement.wrapper = none := by
  rw [Request.statement, h, Option.map_none]

theorem wrapper_some {table : Name} (h : request.metadataTable = some table) :
    request.statement.wrapper =
      some (metadataBlock request.metadataColumns.length request.base.2.1 request.base.2.2.1) := by
  rw [Request.statement, h, Option.map_some]

def Piece.role : Piece → Option Role
  | .table (.role role) => some role
  | _ => none

/-- The tables that a statement selects from where its common table expressions are in scope. -/
def Statement.roles (statement : Statement) : List Role :=
  statement.blocks.flatMap fun block => block.filterMap Piece.role

theorem mem_roles {statement : Statement} {role : Role} :
    role ∈ statement.roles ↔ ∃ block ∈ statement.blocks, .table (.role role) ∈ block := by
  rw [Statement.roles, List.mem_flatMap]
  refine exists_congr fun block => and_congr_right fun _ => ?_
  rw [List.mem_filterMap]
  constructor
  · rintro ⟨piece, hpiece, hrole⟩
    cases piece with
    | table ref =>
      cases ref with
      | cte name => cases hrole
      | role given =>
        obtain rfl := Option.some.inj hrole
        exact hpiece
    | _ => cases hrole
  · exact fun h => ⟨_, h, rfl⟩

/-- Inside the join a statement selects from the tables that its request searches. -/
theorem roles_eq (h : request.Asks) :
    request.statement.roles =
      (request.ftsTable.toList.map fun _ => Role.fts) ++ request.vecTable.toList.map fun _ => Role.vec := by
  change request.base.1.roles = _
  unfold Request.Asks at h
  unfold Request.base
  revert h
  cases request.ftsTable <;> cases request.vecTable <;> cases request.fusion <;> intro h <;>
    first | rfl | exact absurd h (by decide)

theorem filled_lexical (names : Names) :
    lexicalStatement.core.filterMap (Piece.filled names) = List.replicate 4 (names.table .fts) :=
  rfl

theorem filled_semantic (names : Names) :
    semanticStatement.core.filterMap (Piece.filled names) = [names.table .vec] :=
  rfl

theorem filled_rrf (names : Names) :
    rrfStatement.core.filterMap (Piece.filled names) =
      List.replicate 4 (names.table .fts) ++ [names.table .vec] :=
  rfl

theorem filled_dbsf (names : Names) :
    dbsfStatement.core.filterMap (Piece.filled names) =
      List.replicate 4 (names.table .fts) ++ [names.table .vec] :=
  rfl

/-- The names that are filled in inside the join are those of the tables that are searched. -/
theorem mem_filled_core (h : request.Asks) {names : Names} {name : Name} :
    name ∈ request.statement.core.filterMap (Piece.filled names) ↔
      ∃ role ∈ request.statement.roles, names.table role = name := by
  rw [roles_eq h]
  change name ∈ request.base.1.core.filterMap (Piece.filled names) ↔ _
  unfold Request.Asks at h
  unfold Request.base
  revert h
  cases request.ftsTable <;> cases request.vecTable <;> cases request.fusion <;> intro h <;>
    dsimp only <;>
    first
      | exact absurd h (by decide)
      | rw [filled_lexical]
      | rw [filled_semantic]
      | rw [filled_rrf]
      | rw [filled_dbsf]
  all_goals simp [eq_comm]

theorem mem_filled (h : request.Asks) {name : Name} :
    name ∈ request.statement.filled request.names ↔ name ∈ request.spliced := by
  have hcore : name ∈ request.statement.core.filterMap (Piece.filled request.names) ↔
      name ∈ request.ftsTable.toList ++ request.vecTable.toList := by
    rw [mem_filled_core h, roles_eq h]
    unfold Request.names
    cases request.ftsTable <;> cases request.vecTable <;> simp [eq_comm]
  have hjoin : name ∈ (request.statement.wrapper.getD []).filterMap (Piece.filled request.names) ↔
      name ∈ request.metadataTable.toList.flatMap fun table =>
        table :: request.idColumn :: request.metadataColumns := by
    unfold Request.statement
    cases hmetadata : request.metadataTable with
    | none => exact Iff.rfl
    | some table =>
      have htable : request.names.table .metadata = table := by
        rw [Request.names, hmetadata, Option.getD_some]
      have hcolumns : (∃ place < request.metadataColumns.length,
          request.names.column (.selected place) = name) ↔ name ∈ request.metadataColumns := by
        rw [List.mem_iff_getElem]
        constructor
        · rintro ⟨place, hplace, heq⟩
          exact ⟨place, hplace, (names_selected hplace).symm.trans heq⟩
        · rintro ⟨place, hplace, heq⟩
          exact ⟨place, hplace, (names_selected hplace).trans heq⟩
      rw [Option.map_some, Option.getD_some, mem_filled_metadataBlock, htable, hcolumns, Option.toList_some,
        List.flatMap_singleton, List.mem_cons, List.mem_cons, @eq_comm _ name, @eq_comm _ name]
      exact ⟨fun h => by tauto, fun h => by tauto⟩
  rw [Statement.filled, List.filterMap_append, List.mem_append, hcore, hjoin, ← List.mem_append]
  rfl

/-! ### The text is read as the statement -/

theorem Piece.Known.worded {names : Names} {piece : Piece} {ctes : List Name} (hknown : piece.Known ctes)
    (hctes : ∀ name ∈ ctes, IsWord name) (hfilled : ∀ name ∈ piece.filled names, IsWord name) :
    piece.Worded names := by
  cases piece with
  | table ref =>
    cases ref with
    | cte name => exact hctes name hknown
    | role role => exact hfilled _ rfl
  | mention => exact hfilled _ rfl
  | column c => exact hfilled _ rfl
  | _ => trivial

theorem filled_valid (h : plan tests request = .ok p) :
    ∀ name ∈ request.statement.filled request.names, IsWord name ∧ StartsName name :=
  fun name hname => validateIdentifier_ok (spliced_valid h name ((mem_filled (asks_of_plan h)).1 hname))

theorem worded_of_plan (h : plan tests request = .ok p) :
    ∀ piece ∈ request.statement.core ++ request.statement.wrapper.getD [],
      piece.Worded request.names := by
  intro piece hpiece
  have hknown : piece.Known (request.base.1.ctes.map Prod.fst) := by
    rcases List.mem_append.1 hpiece with hcore | hjoin
    · exact (base_sound request).known _ List.mem_cons_self piece hcore
    · cases hmetadata : request.metadataTable with
      | none =>
        rw [wrapper_none hmetadata] at hjoin
        exact absurd hjoin List.not_mem_nil
      | some table =>
        rw [wrapper_some hmetadata] at hjoin
        cases piece with
        | table ref =>
          cases ref with
          | cte name => exact absurd hjoin (metadataBlock_no_cte _ _ _ name)
          | role role => trivial
        | _ => trivial
  refine hknown.worded (fun name hname => ?_) fun name hname =>
    (filled_valid h name (List.mem_filterMap.2 ⟨piece, hpiece, hname⟩)).1
  obtain ⟨cte, hcte, rfl⟩ := List.mem_map.1 hname
  exact ((base_sound request).folded cte hcte).2

theorem render_core_ne_nil (h : plan tests request = .ok p) :
    renderBlock request.names [] request.statement.core ≠ [] := by
  have hsound := base_sound request
  have hworded := worded_of_plan h
  cases hcore : request.statement.core with
  | nil => exact absurd hcore hsound.nonempty
  | cons piece block =>
    have hmem : piece ∈ request.statement.core := hcore ▸ List.mem_cons_self
    have hpiece : piece.render request.names [] ≠ [] := by
      refine Piece.render_ne_nil (hworded piece (List.mem_append_left _ hmem)) (hsound.spaced.1 piece hmem) ?_
      rintro rfl
      exact absurd hmem hsound.noInner
    rw [renderBlock, List.flatMap_cons]
    exact fun heq => hpiece (List.append_eq_nil_iff.1 heq).1

theorem lex_core (h : plan tests request = .ok p) :
    lex (renderBlock request.names [] request.statement.core) =
      request.statement.core.flatMap (Piece.lexed request.names []) :=
  lex_renderBlock (base_sound request).spaced
    (fun piece hpiece => worded_of_plan h piece (List.mem_append_left _ hpiece))
    fun hinner => absurd hinner (base_sound request).noInner

/-- **SQL reads the words of the statement, every name as one word.** -/
theorem lex_sql (h : plan tests request = .ok p) :
    lex (request.statement.render request.names) = request.statement.lexed request.names := by
  have hworded := worded_of_plan h
  have hcore := lex_core h
  unfold Statement.render Statement.lexed
  cases hmetadata : request.metadataTable with
  | none =>
    rw [wrapper_none hmetadata]
    exact hcore
  | some table =>
    rw [wrapper_some hmetadata, Option.getD_some] at hworded
    rw [wrapper_some hmetadata]
    dsimp only
    rw [lex_renderBlock ((base_sound request).metadataBlock_spaced _)
      (fun piece hpiece => hworded piece (List.mem_append_right _ hpiece))
      fun _ => render_core_ne_nil h, hcore]

/-- **The parameters of a plan are those that it binds.** -/
theorem mem_parameters_sql (h : plan tests request = .ok p) {i : ℕ} :
    i ∈ parameters p.sql ↔ 1 ≤ i ∧ i ≤ p.values.length := by
  have hsound := base_sound request
  have hworded := worded_of_plan h
  have hnothing : ([] : List (List UInt8)).getLast? ≠ some [63] :=
    (Option.some_ne_none _).symm
  obtain ⟨hcore, hlast⟩ := parametersFrom_lexed
    (fun piece hpiece => hworded piece (List.mem_append_left _ hpiece)) hsound.whole hnothing
  have hrange : i ∈ request.base.1.core.flatMap (Piece.parameters []) ↔
      1 ≤ i ∧ i ≤ p.values.length := by
    rw [(plan_eq h).2.2]
    refine ⟨hsound.parameter i, fun hi => ?_⟩
    have hmem := hsound.parameters (i - 1) (List.mem_range.2 (by omega))
    rwa [Nat.sub_add_cancel hi.1] at hmem
  rw [(plan_eq h).1, parameters, lex_sql h, ← hrange]
  unfold Statement.lexed
  cases hmetadata : request.metadataTable with
  | none =>
    rw [wrapper_none hmetadata]
    dsimp only
    rw [hcore]
    exact Iff.rfl
  | some table =>
    rw [wrapper_some hmetadata, Option.getD_some] at hworded
    rw [wrapper_some hmetadata]
    dsimp only
    rw [(parametersFrom_lexed (fun piece hpiece => hworded piece (List.mem_append_right _ hpiece))
      (hsound.metadataBlock_whole _) hlast).1, hsound.mem_parameters_metadataBlock, hcore]
    exact Iff.rfl

end Search

end Zaxonlite
