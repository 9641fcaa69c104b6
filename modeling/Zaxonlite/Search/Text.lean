import Zaxonlite.Search.Templates

/-!
# The text of a plan

What a plan says is the rendering of the statement of its request with the names of the request, and all of
these names have passed the check for identifiers.
-/

namespace Zaxonlite

namespace Search

open Shell (isAlphabetic isDigit isUpper)

variable {R : Type} {tests : WeightTests R} {request : Request R} {p : Plan R}

/-! ### The text of a plan -/

theorem withPieces_cons (first second : Name × Block) (rest : List (Name × Block)) :
    withPieces (first :: second :: rest) =
      ctePieces first ++ .text (asciiBytes ", ") :: withPieces (second :: rest) :=
  rfl

theorem withPieces_singleton (cte : Name × Block) :
    withPieces [cte] = ctePieces cte ++ [.text (asciiBytes " ")] :=
  rfl

theorem core_with (cte : Name × Block) (ctes : List (Name × Block)) (body : Block)
    (wrapper : Option Block) :
    Statement.core ⟨cte :: ctes, body, wrapper⟩ =
      .text (asciiBytes "with ") :: withPieces (cte :: ctes) ++ body :=
  rfl

theorem core_without (body : Block) (wrapper : Option Block) :
    Statement.core ⟨[], body, wrapper⟩ = body :=
  rfl

theorem lexicalSql_eq (names : Names) :
    lexicalSql (names.table .fts) = renderBlock names [] lexicalStatement.core := by
  rw [lexicalStatement, core_without]
  unfold lexicalSql
  simp only [renderBlock, matchBlock, bm25Score, words, List.cons_append,
    List.nil_append, List.flatMap_cons, List.flatMap_nil, Piece.render, Ref.name]
  simp only [List.append_assoc, List.append_nil]

theorem semanticSql_eq (names : Names) :
    semanticSql (names.table .vec) = renderBlock names [] semanticStatement.core := by
  rw [semanticStatement, core_with, withPieces_singleton]
  unfold semanticSql
  simp only [renderBlock, ctePieces, coarseBlock,
    rerankedBlock, words, cte, List.cons_append, List.nil_append, List.flatMap_cons, List.flatMap_nil,
    Piece.render, Ref.name]
  simp only [List.append_assoc, List.append_nil]

theorem buildRrfSql_eq (names : Names) :
    buildRrfSql (names.table .fts) (names.table .vec) = renderBlock names [] rrfStatement.core := by
  rw [rrfStatement, core_with]
  repeat rw [withPieces_cons]
  rw [withPieces_singleton]
  unfold buildRrfSql
  simp only [renderBlock, ctePieces,
    matchBlock, bm25Rank, coarseBlock, rerankedBlock, fusedBlock, words, cte, List.cons_append, List.nil_append,
    List.flatMap_cons, List.flatMap_nil, Piece.render, Ref.name]
  simp only [List.append_assoc, List.append_nil]

theorem buildDbsfSql_eq (names : Names) :
    buildDbsfSql (names.table .fts) (names.table .vec) = renderBlock names [] dbsfStatement.core := by
  rw [dbsfStatement, core_with]
  repeat rw [withPieces_cons]
  rw [withPieces_singleton]
  unfold buildDbsfSql
  simp only [renderBlock, ctePieces,
    matchBlock, bm25Score, coarseBlock, rerankedBlock, normalizedBlock, fusedBlock, words, cte, List.cons_append,
    List.nil_append, List.flatMap_cons, List.flatMap_nil, Piece.render, Ref.name]
  simp only [List.append_assoc, List.append_nil]

theorem flatMap_range_getD {columns : List Name} (f : Name → List UInt8) :
    (List.range columns.length).flatMap (fun place => f (columns.getD place [])) = columns.flatMap f := by
  have hcolumns : (List.range columns.length).map (fun place => columns.getD place []) = columns := by
    refine List.ext_getElem (by rw [List.length_map, List.length_range]) fun place _ hplace => ?_
    rw [List.getElem_map, List.getElem_range, List.getD_eq_getElem?_getD, List.getElem?_eq_getElem hplace,
      Option.getD_some]
  calc (List.range columns.length).flatMap (fun place => f (columns.getD place []))
      = ((List.range columns.length).map fun place => columns.getD place []).flatMap f :=
        (List.flatMap_map ..).symm
    _ = columns.flatMap f := by rw [hcolumns]

/-- The join as it is written around a statement. -/
theorem addMetadata_eq (request : Request R) {base : Statement} {score order : String} {ascending : Bool}
    (horder : (if ascending then asciiBytes "asc" else asciiBytes "desc") = asciiBytes order) :
    addMetadata (renderBlock request.names [] base.core) request (asciiBytes score) ascending =
      Statement.render
        { base with
          wrapper := request.metadataTable.map fun _ =>
            metadataBlock request.metadataColumns.length score order }
        request.names := by
  unfold addMetadata Statement.render
  cases hmetadata : request.metadataTable with
  | none => rfl
  | some table =>
    have hcolumns (inner : List UInt8) :
        renderBlock request.names inner ((List.range request.metadataColumns.length).flatMap columnPieces) =
          metadataList request.metadataColumns := by
      rw [renderBlock, List.flatMap_assoc, metadataList, ← flatMap_range_getD]
      refine List.flatMap_congr fun place _ => ?_
      simp only [columnPieces, List.flatMap_cons, List.flatMap_nil, List.append_nil]
      rfl
    have htable : request.names.table .metadata = table := by
      rw [Request.names, hmetadata, Option.getD_some]
    dsimp only [Option.map_some]
    rw [metadataBlock_eq, horder, ← hcolumns (renderBlock request.names [] base.core)]
    simp only [renderBlock, joinTail, words, List.flatMap_cons, List.flatMap_append, List.flatMap_nil,
      Piece.render, Ref.name, htable, List.append_assoc, List.append_nil]
    rfl

/-! ### Accepted names -/

theorem not_isDigit_of_first {byte : UInt8} (h : (isAlphabetic byte || byte = 95) = true) :
    isNameByte byte = true ∧ isDigit byte = false := by
  unfold isNameByte
  unfold isAlphabetic isUpper isDigit at *
  grind

theorem validateIdentifier_ok {name : Name} (h : validateIdentifier name = .ok ()) :
    IsWord name ∧ StartsName name := by
  unfold validateIdentifier at h
  split at h
  · cases h
  rename_i hlength
  split at h
  · cases h
  rename_i hfirst
  split at h
  · cases h
  rename_i hbytes
  cases name with
  | nil => exact absurd (.inl rfl) hlength
  | cons first rest =>
    refine ⟨⟨List.cons_ne_nil _ _, fun byte hbyte => ?_⟩, ?_⟩
    · rw [List.any_eq_true] at hbytes
      by_contra hnot
      exact hbytes ⟨byte, hbyte, by rw [Bool.not_eq_true] at hnot; rw [hnot]; rfl⟩
    · rw [List.head?_cons, Option.any_some] at hfirst
      have hstart : (isAlphabetic first || first = 95) = true := by
        by_contra hnot
        rw [Bool.not_eq_true, Bool.or_eq_false_iff, decide_eq_false_iff_not] at hnot
        exact hfirst (by rw [hnot.1, Bool.not_false, Bool.true_and, decide_eq_true hnot.2])
      obtain ⟨hname, hdigit⟩ := not_isDigit_of_first hstart
      rw [StartsName, List.head?_cons, Option.any_some, hname, hdigit]
      rfl

theorem metadataIdentifier_ok {name : Name} (h : metadataIdentifier name = .ok ()) :
    validateIdentifier name = .ok () := by
  unfold metadataIdentifier at h
  cases hvalid : validateIdentifier name with
  | error error =>
    rw [hvalid] at h
    cases h
  | ok _ => rfl

theorem foldlM_metadataIdentifier {columns : List Name}
    (h : columns.foldlM (fun _ column => metadataIdentifier column) () = .ok ()) :
    ∀ column ∈ columns, validateIdentifier column = .ok () := by
  induction columns with
  | nil => exact fun _ hmem => absurd hmem List.not_mem_nil
  | cons column columns ih =>
    rw [List.foldlM_cons] at h
    cases hcolumn : metadataIdentifier column with
    | error error =>
      rw [hcolumn] at h
      cases h
    | ok _ =>
      rw [hcolumn] at h
      exact List.forall_mem_cons.2 ⟨metadataIdentifier_ok hcolumn, ih h⟩

/-- The number of candidates that a request asks for. -/
def Request.candidates (request : Request R) : ℕ :=
  match request.candidateCount with
  | some count => count.toNat
  | none => defaultCandidateCount request.k.toNat

theorem validate_ok {candidates : ℕ} (h : validate tests request = .ok candidates) :
    validateLexical request = .ok () ∧ validateSemantic request = .ok () ∧
      validateMetadata request = .ok () ∧ candidates = request.candidates := by
  unfold validate at h
  split at h
  · cases h
  extract_lets count at h
  split at h
  · cases h
  split at h
  · cases h
  split at h
  · cases h
  cases hlexical : validateLexical request with
  | error error =>
    rw [hlexical] at h
    cases h
  | ok _ =>
    cases hsemantic : validateSemantic request with
    | error error =>
      rw [hlexical, hsemantic] at h
      cases h
    | ok _ =>
      cases hmetadata : validateMetadata request with
      | error error =>
        rw [hlexical, hsemantic, hmetadata] at h
        cases h
      | ok _ =>
        rw [hlexical, hsemantic, hmetadata] at h
        exact ⟨rfl, rfl, rfl, (Except.ok.inj h).symm⟩

theorem validateLexical_ok {fts : Name} (h : validateLexical request = .ok ())
    (hfts : request.ftsTable = some fts) :
    validateIdentifier fts = .ok () := by
  unfold validateLexical at h
  rw [hfts] at h
  cases hvalid : validateIdentifier fts with
  | error error =>
    dsimp only at h
    rw [hvalid] at h
    cases h
  | ok _ => rfl

theorem validateSemantic_ok {vec : Name} (h : validateSemantic request = .ok ())
    (hvec : request.vecTable = some vec) :
    validateIdentifier vec = .ok () := by
  unfold validateSemantic at h
  rw [hvec] at h
  cases hvalid : validateIdentifier vec with
  | error error =>
    dsimp only at h
    rw [hvalid] at h
    cases h
  | ok _ => rfl

theorem validateMetadata_ok {table : Name} (h : validateMetadata request = .ok ())
    (htable : request.metadataTable = some table) :
    ∀ name ∈ table :: request.idColumn :: request.metadataColumns, validateIdentifier name = .ok () := by
  unfold validateMetadata at h
  rw [if_neg (fun hnone => by rw [htable] at hnone; cases hnone.1), htable] at h
  dsimp only at h
  split at h
  · cases h
  split at h
  · cases h
  cases hvalid : metadataIdentifier table with
  | error error =>
    rw [hvalid] at h
    cases h
  | ok _ =>
    cases hid : metadataIdentifier request.idColumn with
    | error error =>
      rw [hvalid, hid] at h
      cases h
    | ok _ =>
      rw [hvalid, hid] at h
      exact List.forall_mem_cons.2 ⟨metadataIdentifier_ok hvalid,
        List.forall_mem_cons.2 ⟨metadataIdentifier_ok hid, foldlM_metadataIdentifier h⟩⟩

/-- **Every name that is spliced into an accepted request is an identifier.** -/
theorem spliced_valid (h : plan tests request = .ok p) :
    ∀ name ∈ request.spliced, validateIdentifier name = .ok () := by
  unfold plan at h
  cases hvalid : validate tests request with
  | error error =>
    rw [hvalid] at h
    cases h
  | ok candidates =>
    obtain ⟨hlexical, hsemantic, hmetadata, -⟩ := validate_ok hvalid
    intro name hname
    rcases List.mem_append.1 hname with hname | hname
    · rcases List.mem_append.1 hname with hname | hname
      · exact validateLexical_ok hlexical (Option.mem_toList.1 hname)
      · exact validateSemantic_ok hsemantic (Option.mem_toList.1 hname)
    · obtain ⟨table, htable, hname⟩ := List.mem_flatMap.1 hname
      exact validateMetadata_ok hmetadata (Option.mem_toList.1 htable) name hname

/-! ### The plan -/

/-- The values that the plan of a request binds. -/
def Request.values (request : Request R) : List (Prepared.Value R) :=
  match request.ftsTable, request.vecTable with
  | some _, none => [.text (request.text.getD []), count request.k.toNat]
  | none, _ => [.blob (request.embedding.getD []), count request.candidates, count request.k.toNat]
  | some _, some _ =>
    [.text (request.text.getD []), count request.candidates, .blob (request.embedding.getD []),
      count request.k.toNat, .real request.textWeight, .real request.vectorWeight]

/-- **A plan is the text of its statement, with the names of the request, and binds as many values as the
statement has parameters.** -/
theorem plan_eq (h : plan tests request = .ok p) :
    p.sql = request.statement.render request.names ∧ p.values = request.values ∧
      p.values.length = request.base.2.2.2 := by
  unfold plan at h
  cases hvalid : validate tests request with
  | error error =>
    rw [hvalid] at h
    cases h
  | ok candidates =>
    obtain ⟨-, -, -, rfl⟩ := validate_ok hvalid
    rw [hvalid] at h
    have hnames : request.names.table .fts = request.ftsTable.getD [] ∧
        request.names.table .vec = request.vecTable.getD [] :=
      ⟨rfl, rfl⟩
    unfold Request.statement Request.base Request.values
    cases hfts : request.ftsTable with
    | none =>
      cases hvec : request.vecTable with
      | none =>
        rw [hfts, hvec] at h
        cases h
      | some vec =>
        rw [hfts, hvec] at h
        cases h
        refine ⟨?_, rfl, rfl⟩
        rw [hvec, Option.getD_some] at hnames
        rw [planSemantic, ← hnames.2, semanticSql_eq]
        exact addMetadata_eq request rfl
    | some fts =>
      rw [hfts, Option.getD_some] at hnames
      cases hvec : request.vecTable with
      | none =>
        rw [hfts, hvec] at h
        cases h
        refine ⟨?_, rfl, rfl⟩
        rw [planLexical, ← hnames.1, lexicalSql_eq]
        exact addMetadata_eq request rfl
      | some vec =>
        rw [hfts, hvec] at h
        cases h
        rw [hvec, Option.getD_some] at hnames
        cases request.fusion with
        | rrf =>
          refine ⟨?_, rfl, rfl⟩
          rw [bindHybrid, ← hnames.1, ← hnames.2, buildRrfSql_eq]
          exact addMetadata_eq request rfl
        | dbsf =>
          refine ⟨?_, rfl, rfl⟩
          rw [bindHybrid, ← hnames.1, ← hnames.2, buildDbsfSql_eq]
          exact addMetadata_eq request rfl

end Search

end Zaxonlite
