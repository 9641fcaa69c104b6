import Zaxonlite.Search.Meaning

/-!
# The statements of the plans

There are four statements and a join that may be put around each. What the later arguments need of them is
decided here: that their pieces do not run into each other, which names they leave open, which parameters
they have, and that they refer to their own common table expressions.
-/

namespace Zaxonlite

namespace Search

/-- The statements that a request may have inside its join. -/
def bases : List (Statement × String × String × ℕ) :=
  [(lexicalStatement, "score", "desc", 2), (semanticStatement, "exact_distance", "asc", 3),
    (rrfStatement, "fused_score", "desc", 6), (dbsfStatement, "fused_score", "desc", 6)]

instance (block : Block) : Decidable (Spaced block) :=
  inferInstanceAs (Decidable (_ ∧ _))

/-- A common table expression that a piece refers to is among these. -/
def Piece.Known (ctes : List Name) : Piece → Prop
  | .table (.cte name) => name ∈ ctes
  | _ => True

instance (ctes : List Name) : DecidablePred (Piece.Known ctes)
  | .table (.cte name) => inferInstanceAs (Decidable (name ∈ ctes))
  | .table (.role _) => isTrue trivial
  | .text _ => isTrue trivial
  | .mention => isTrue trivial
  | .rowid => isTrue trivial
  | .column _ => isTrue trivial
  | .inner => isTrue trivial

/-- What is decided of a statement and of its join. -/
structure Sound (base : Statement × String × String × ℕ) : Prop where
  nonempty : base.1.core ≠ []
  noInner : .inner ∉ base.1.core
  spaced : Spaced base.1.core
  whole : ∀ piece ∈ base.1.core, piece.Whole
  folded : ∀ cte ∈ base.1.ctes, fold cte.1 = cte.1 ∧ IsWord cte.1
  known : ∀ block ∈ base.1.core :: base.1.blocks, ∀ piece ∈ block,
    piece.Known (base.1.ctes.map Prod.fst)
  parameter : ∀ i ∈ base.1.core.flatMap (Piece.parameters []), 1 ≤ i ∧ i ≤ base.2.2.2
  parameters : ∀ i ∈ List.range base.2.2.2, i + 1 ∈ base.1.core.flatMap (Piece.parameters [])
  joinSpaced : Spaced (metadataBlock 0 base.2.1 base.2.2.1)
  joinWhole : ∀ piece ∈ metadataBlock 0 base.2.1 base.2.2.1, piece.Whole
  joinParameters : ∀ piece ∈ metadataBlock 0 base.2.1 base.2.2.1, piece.parameters [] = []

instance : DecidablePred Sound := fun _ =>
  decidable_of_iff (_ ∧ _ ∧ _ ∧ _ ∧ _ ∧ _ ∧ _ ∧ _ ∧ _ ∧ _ ∧ _)
    ⟨fun ⟨a, b, c, d, e, f, g, h, i, j, k⟩ => ⟨a, b, c, d, e, f, g, h, i, j, k⟩,
      fun h => ⟨h.1, h.2, h.3, h.4, h.5, h.6, h.7, h.8, h.9, h.10, h.11⟩⟩

theorem bases_sound : ∀ base ∈ bases, Sound base := by
  decide +kernel

variable {base : Statement × String × String × ℕ}

theorem Sound.closed (h : Sound base) {wrapper : Option Block}
    (hwrapper : ∀ block ∈ wrapper, ∀ name, .table (.cte name) ∉ block) :
    Statement.Closed { base.1 with wrapper := wrapper } where
  folded cte hcte := (h.folded cte hcte).1
  refs block hblock name hname := by
    have hknown := h.known block (List.mem_cons_of_mem _ hblock) _ hname
    exact List.mem_map.1 hknown
  wrapper := hwrapper

/-! ### The join -/

/-- A column of the join, with what stands before it. -/
def columnPieces (place : ℕ) : Block :=
  [words ", metadata.", .column (.selected place)]

/-- The join behind its columns. -/
def joinTail (score order : String) : Block :=
  [words " from (", .inner, words ") as search_results ", words "left join ", .table (.role .metadata),
    words " as metadata on metadata.", .column .id, words " = search_results.item_id ",
    words "order by search_results.", words score, words " ", words order,
    words ", search_results.item_id"]

theorem metadataBlock_eq (columns : ℕ) (score order : String) :
    metadataBlock columns score order =
      words "select search_results.item_id, search_results." :: words score ::
        ((List.range columns).flatMap columnPieces ++ joinTail score order) :=
  rfl

theorem mem_metadataBlock {columns : ℕ} {score order : String} {piece : Piece}
    (h : piece ∈ metadataBlock columns score order) :
    piece ∈ metadataBlock 0 score order ∨ piece = words ", metadata." ∨
      ∃ place < columns, piece = .column (.selected place) := by
  rw [metadataBlock_eq, List.mem_cons, List.mem_cons, List.mem_append, List.mem_flatMap] at h
  rcases h with rfl | rfl | ⟨place, hplace, h⟩ | h
  · exact .inl List.mem_cons_self
  · exact .inl (List.mem_cons_of_mem _ List.mem_cons_self)
  · rcases List.mem_cons.1 h with rfl | h
    · exact .inr (.inl rfl)
    · exact .inr (.inr ⟨place, List.mem_range.1 hplace, List.mem_singleton.1 h⟩)
  · exact .inl (List.mem_cons_of_mem _ (List.mem_cons_of_mem _ h))

theorem inner_mem_metadataBlock (columns : ℕ) (score order : String) :
    .inner ∈ metadataBlock columns score order := by
  rw [metadataBlock_eq]
  refine List.mem_cons_of_mem _ (List.mem_cons_of_mem _ (List.mem_append_right _ ?_))
  exact List.mem_cons_of_mem _ List.mem_cons_self

theorem Spaced.tail {piece : Piece} {block : Block} (h : Spaced (piece :: block)) : Spaced block :=
  ⟨(List.forall_mem_cons.1 h.1).2, h.2.tail⟩

theorem spaced_cons {piece : Piece} {block : Block} (hpiece : piece ≠ .text [])
    (hhead : ∀ next ∈ block.head?, ¬(piece.endsName = true ∧ next.startsName = true))
    (h : Spaced block) :
    Spaced (piece :: block) :=
  ⟨List.forall_mem_cons.2 ⟨hpiece, h.1⟩, List.isChain_cons.2 ⟨hhead, h.2⟩⟩

/-- The columns of the join do not run into what stands around them. -/
theorem spaced_columns {tail : Block} (htail : Spaced tail)
    (hopens : ∀ next ∈ tail.head?, next.startsName = false) (places : List ℕ) :
    Spaced (places.flatMap columnPieces ++ tail) ∧
      ∀ next ∈ (places.flatMap columnPieces ++ tail).head?, next.startsName = false := by
  have hcomma : (words ", metadata.").startsName = false ∧ (words ", metadata.").endsName = false ∧
      words ", metadata." ≠ .text [] := by
    decide +kernel
  induction places with
  | nil => exact ⟨htail, hopens⟩
  | cons place places ih =>
    have hcolumn : Spaced (.column (.selected place) :: (places.flatMap columnPieces ++ tail)) := by
      refine spaced_cons Piece.noConfusion (fun next hnext h => ?_) ih.1
      rw [ih.2 next hnext] at h
      exact Bool.noConfusion h.2
    refine ⟨spaced_cons hcomma.2.2 (fun next _ h => ?_) hcolumn, fun next hnext => ?_⟩
    · rw [hcomma.2.1] at h
      exact Bool.noConfusion h.1
    · obtain rfl := Option.some.inj hnext
      exact hcomma.1

theorem Sound.metadataBlock_spaced (h : Sound base) (columns : ℕ) :
    Spaced (metadataBlock columns base.2.1 base.2.2.1) := by
  have hjoin := h.joinSpaced
  rw [metadataBlock_eq, List.range_zero, List.flatMap_nil, List.nil_append] at hjoin
  have hopens : ∀ next ∈ (joinTail base.2.1 base.2.2.1).head?, next.startsName = false := by
    intro next hnext
    obtain rfl := Option.some.inj hnext
    decide +kernel
  obtain ⟨hspaced, hhead⟩ := spaced_columns hjoin.tail.tail hopens (List.range columns)
  rw [metadataBlock_eq]
  refine spaced_cons (hjoin.1 _ List.mem_cons_self) ?_ (spaced_cons ?_ (fun next hnext h => ?_) hspaced)
  · exact (List.isChain_cons.1 hjoin.2).1
  · exact hjoin.1 _ (List.mem_cons_of_mem _ List.mem_cons_self)
  · rw [hhead next hnext] at h
    exact Bool.noConfusion h.2

theorem Sound.metadataBlock_whole (h : Sound base) (columns : ℕ) :
    ∀ piece ∈ metadataBlock columns base.2.1 base.2.2.1, piece.Whole := by
  intro piece hpiece
  rcases mem_metadataBlock hpiece with hpiece | rfl | ⟨place, -, rfl⟩
  · exact h.joinWhole piece hpiece
  · decide +kernel
  · trivial

theorem Sound.mem_parameters_metadataBlock (h : Sound base) {inner : List ℕ} {columns i : ℕ} :
    i ∈ (metadataBlock columns base.2.1 base.2.2.1).flatMap (Piece.parameters inner) ↔ i ∈ inner := by
  rw [List.mem_flatMap]
  constructor
  · rintro ⟨piece, hpiece, hi⟩
    rcases mem_metadataBlock hpiece with hpiece | rfl | ⟨place, -, rfl⟩
    · cases piece with
      | inner => exact hi
      | text words =>
        have hnone := h.joinParameters _ hpiece
        rw [Piece.parameters] at hi hnone
        rw [hnone] at hi
        exact absurd hi List.not_mem_nil
      | _ => exact absurd hi List.not_mem_nil
    · have hnone : Search.parameters (asciiBytes ", metadata.") = [] := by
        decide +kernel
      change i ∈ Search.parameters _ at hi
      rw [hnone] at hi
      exact absurd hi List.not_mem_nil
    · exact absurd hi List.not_mem_nil
  · exact fun hi => ⟨.inner, inner_mem_metadataBlock _ _ _, hi⟩

theorem refs_metadataBlock (columns : ℕ) (score order : String) :
    (metadataBlock columns score order).filterMap Piece.ref = [.role .metadata] := by
  have hcolumns : ((List.range columns).flatMap columnPieces).filterMap Piece.ref = [] := by
    rw [List.filterMap_eq_nil_iff]
    intro piece hpiece
    obtain ⟨place, -, hpiece⟩ := List.mem_flatMap.1 hpiece
    rcases List.mem_cons.1 hpiece with rfl | hpiece
    · rfl
    · rw [List.mem_singleton.1 hpiece]
      rfl
  have htail : (joinTail score order).filterMap Piece.ref = [.role .metadata] :=
    rfl
  rw [← htail, ← List.nil_append ((joinTail score order).filterMap Piece.ref), ← hcolumns,
    ← List.filterMap_append]
  rfl

theorem ref_metadataBlock {columns : ℕ} {score order : String} {ref : Ref}
    (h : .table ref ∈ metadataBlock columns score order) : ref = .role .metadata := by
  have href := List.mem_filterMap.2 ⟨_, h, show Piece.ref (.table ref) = some ref from rfl⟩
  rw [refs_metadataBlock] at href
  exact List.mem_singleton.1 href

theorem metadataBlock_no_cte (columns : ℕ) (score order : String) (name : Name) :
    .table (.cte name) ∉ metadataBlock columns score order :=
  fun h => Ref.noConfusion (ref_metadataBlock h)

theorem column_metadataBlock {columns : ℕ} {score order : String} {c : Column}
    (h : .column c ∈ metadataBlock columns score order) :
    c = .id ∨ ∃ place < columns, c = .selected place := by
  rcases mem_metadataBlock h with h | h | ⟨place, hplace, h⟩
  · simp only [metadataBlock, words, List.range_zero, List.flatMap_nil, List.cons_append, List.nil_append,
      List.mem_cons, List.not_mem_nil, or_false, reduceCtorEq, false_or, Piece.column.injEq] at h
    exact .inl h
  · exact Piece.noConfusion h
  · exact .inr ⟨place, hplace, Piece.column.inj h⟩

/-- The names in the join: the columns, the table and the item ID. -/
theorem mem_filled_metadataBlock {names : Names} {columns : ℕ} {score order : String} {name : Name} :
    name ∈ (metadataBlock columns score order).filterMap (Piece.filled names) ↔
      (∃ place < columns, names.column (.selected place) = name) ∨ names.table .metadata = name ∨
        names.column .id = name := by
  have hcolumns : ((List.range columns).flatMap columnPieces).filterMap (Piece.filled names) =
      (List.range columns).map fun place => names.column (.selected place) := by
    induction List.range columns with
    | nil => rfl
    | cons place places ih =>
      rw [List.flatMap_cons, List.filterMap_append, ih]
      rfl
  have htail : (joinTail score order).filterMap (Piece.filled names) =
      [names.table .metadata, names.column .id] :=
    rfl
  have hall : (metadataBlock columns score order).filterMap (Piece.filled names) =
      ((List.range columns).map fun place => names.column (.selected place)) ++
        [names.table .metadata, names.column .id] := by
    rw [← hcolumns, ← htail, ← List.filterMap_append]
    rfl
  rw [hall, List.mem_append, List.mem_map, List.mem_cons, List.mem_singleton, eq_comm, @eq_comm _ name]
  simp only [List.mem_range]

end Search

end Zaxonlite
