import Zaxonlite.Client.Dsn
import Zaxonlite.Lib.Faults

/-!
# The errors of DSN parsing

Parsing is at fault where it ends in an exception that is not one of the driver's. There are four places
for that: an option and a seed whose escapes are not UTF-8, and a port and a numeric option of digits that
`int` does not read. Each is reached only when nothing before it was refused.
-/

namespace Zaxonlite

namespace Dsn

open Checked (bind_eq_ok require ok_bind error_bind)
open Faults

variable {py : Python}

/-- Well-formed escapes of bytes that are not UTF-8. -/
def Undecodable (value : Text) : Prop :=
  wellEscaped value = true ∧ unquote value = none

/-- Digits that `int` does not read. -/
def Unreadable (py : Python) (value : Text) : Prop :=
  py.isdigit value = true ∧ py.int value = none

/-- The parser reaches an option with such escapes. -/
def OptionUndecodable (dsn : Text) : Prop :=
  ∃ authority query, splitDsn dsn = .ok (authority, query) ∧ query ≠ [] ∧
    ∃ before pair after state, query.splitOn 38 = before ++ pair :: after ∧
      before.foldlM (readPair authority) ([], []) = .ok state ∧
      ∃ raw, (partition 61 pair).2 = some raw ∧ Undecodable raw

/-- The parser reaches a seed of the authority with such escapes. -/
def SeedUndecodable (dsn : Text) : Prop :=
  ∃ authority query state, splitDsn dsn = .ok (authority, query) ∧
    readPairs authority query = .ok state ∧ authority ≠ [] ∧
    ∃ before seed after decoded, authority.splitOn 44 = before ++ seed :: after ∧
      (before.mapM fun seed => strictUnquote seed none) = .ok decoded ∧ Undecodable seed

/-- The parser reaches a seed with a port of such digits. -/
def PortUnreadable (py : Python) (dsn : Text) : Prop :=
  ∃ authority options seeds, gather dsn = .ok (authority, options, seeds) ∧ (¬∃ seed ∈ seeds, IsUnix seed) ∧
    ∃ before seed after results, seeds = before ++ seed :: after ∧
      before.mapM (validateTcpSeed py) = .ok results ∧
      ∃ host portText, splitSeed seed = .ok (host, portText) ∧ host ≠ [] ∧ Unreadable py portText

/-- The parser reaches a numeric option of such digits. -/
def NumberUnreadable (py : Python) (dsn : Text) : Prop :=
  ∃ authority options seeds, gather dsn = .ok (authority, options, seeds) ∧
    validateSeeds py authority seeds = .ok () ∧
    (∀ given ∈ options.lookup (text "read_level"), given ∈ readLevels) ∧
    (∀ given ∈ options.lookup (text "read_policy"), given ∈ readPolicies) ∧
    ∃ before name after results, unsignedOptions = before ++ name :: after ∧
      before.mapM (unsignedOption py options) = .ok results ∧
      ∃ value, options.lookup name = some value ∧ Unreadable py value

/-! ### The parts -/

theorem not_faulty_demand (refusal : Refusal) (c : Prop) [Decidable c] :
    ¬Faulty PyError.Own (demand refusal c) :=
  not_faulty_require trivial c

theorem demand_eq_ok {refusal : Refusal} {c : Prop} [Decidable c] {u : Unit} :
    demand refusal c = .ok u ↔ c := by
  unfold demand require
  by_cases hc : c
  · rw [if_pos hc]
    exact ⟨fun _ => hc, fun _ => rfl⟩
  · rw [if_neg hc]
    constructor
    · intro h
      cases h
    · intro h
      exact absurd h hc

/-- Behind a test, a computation is at fault where the test holds and the rest is. -/
theorem faulty_demand_bind {α : Type} {refusal : Refusal} {c : Prop} [Decidable c]
    {f : Unit → Except PyError α} :
    Faulty PyError.Own (demand refusal c >>= f) ↔ c ∧ Faulty PyError.Own (f ()) := by
  rw [faulty_bind, or_iff_right (not_faulty_demand refusal c)]
  constructor
  · rintro ⟨u, hc, h⟩
    exact ⟨demand_eq_ok.1 hc, h⟩
  · rintro ⟨hc, h⟩
    exact ⟨(), demand_eq_ok.2 hc, h⟩

theorem demand_bind_eq_ok {α : Type} {refusal : Refusal} {c : Prop} [Decidable c]
    {f : Unit → Except PyError α} {a : α} :
    demand refusal c >>= f = .ok a ↔ c ∧ f () = .ok a := by
  rw [bind_eq_ok]
  constructor
  · rintro ⟨u, hc, h⟩
    exact ⟨demand_eq_ok.1 hc, h⟩
  · rintro ⟨hc, h⟩
    exact ⟨(), demand_eq_ok.2 hc, h⟩

theorem faulty_strictUnquote {value : Text} {option : Option Text} :
    Faulty PyError.Own (strictUnquote value option) ↔ Undecodable value := by
  unfold strictUnquote Undecodable
  rw [faulty_demand_bind]
  cases unquote value with
  | none => exact and_congr_right fun _ => iff_of_true (faulty_error not_false) rfl
  | some decoded =>
    exact and_congr_right fun _ => iff_of_false (not_faulty_ok decoded) (Option.some_ne_none decoded)

theorem faulty_toInt {value : Text} : Faulty PyError.Own (py.toInt value) ↔ py.int value = none := by
  unfold Python.toInt
  cases py.int value with
  | none => exact iff_of_true (faulty_error not_false) rfl
  | some n => exact iff_of_false (not_faulty_ok n) (Option.some_ne_none n)

theorem toInt_eq_ok {value : Text} {n : ℕ} : py.toInt value = .ok n ↔ py.int value = some n := by
  unfold Python.toInt
  cases py.int value with
  | none =>
    constructor
    · intro h
      cases h
    · intro h
      cases h
  | some m => rw [Except.ok.injEq, Option.some.injEq]

theorem not_faulty_splitDsn (dsn : Text) : ¬Faulty PyError.Own (splitDsn dsn) := by
  unfold splitDsn
  intro h
  obtain ⟨-, h⟩ := faulty_demand_bind.1 h
  obtain ⟨-, h⟩ := faulty_demand_bind.1 h
  obtain ⟨-, h⟩ := faulty_demand_bind.1 h
  exact not_faulty_ok _ h

theorem partition_nil (c : ℕ) : partition c [] = ([], none) :=
  rfl

theorem faulty_readPair {authority pair : Text} {state : Options × List Text} :
    Faulty PyError.Own (readPair authority state pair) ↔
      ∃ raw, (partition 61 pair).2 = some raw ∧ Undecodable raw := by
  have hrest (key value : Text) : ¬Faulty PyError.Own
      (if key = text "seed" then do
          demand .seedWithAuthority (authority = [])
          .ok (state.1, state.2 ++ [value])
        else if key ∈ singletonOptions then do
          demand (.duplicateOption key) (state.1.lookup key = none)
          .ok ((key, value) :: state.1, state.2)
        else .error (.programmingError (.unknownOption key)) : Except PyError (Options × List Text)) := by
    split_ifs
    · exact fun h => not_faulty_ok _ (faulty_demand_bind.1 h).2
    · exact fun h => not_faulty_ok _ (faulty_demand_bind.1 h).2
    · exact not_faulty_error trivial
  unfold readPair
  rw [faulty_demand_bind]
  generalize hpartition : partition 61 pair = parts
  obtain ⟨key, raw⟩ := parts
  dsimp only
  rw [faulty_demand_bind, faulty_bind, faulty_strictUnquote]
  constructor
  · rintro ⟨-, hsome, hraw | ⟨value, -, h⟩⟩
    · obtain ⟨given, rfl⟩ := Option.isSome_iff_exists.1 hsome
      exact ⟨given, rfl, hraw⟩
    · exact absurd h (hrest key value)
  · rintro ⟨given, rfl, hraw⟩
    refine ⟨?_, rfl, .inl hraw⟩
    rintro rfl
    rw [partition_nil] at hpartition
    cases hpartition

theorem faulty_readPairs {authority query : Text} :
    Faulty PyError.Own (readPairs authority query) ↔ query ≠ [] ∧
      ∃ before pair after state, query.splitOn 38 = before ++ pair :: after ∧
        before.foldlM (readPair authority) ([], []) = .ok state ∧
        ∃ raw, (partition 61 pair).2 = some raw ∧ Undecodable raw := by
  unfold readPairs
  by_cases hquery : query = []
  · rw [if_pos hquery]
    exact iff_of_false (not_faulty_ok _) fun h => h.1 hquery
  · rw [if_neg hquery, faulty_foldlM]
    simp only [faulty_readPair]
    exact ⟨fun h => ⟨hquery, h⟩, fun h => h.2⟩

theorem faulty_readSeeds {authority : Text} {querySeeds : List Text} :
    Faulty PyError.Own (readSeeds authority querySeeds) ↔ authority ≠ [] ∧
      ∃ before seed after decoded, authority.splitOn 44 = before ++ seed :: after ∧
        (before.mapM fun seed => strictUnquote seed none) = .ok decoded ∧ Undecodable seed := by
  unfold readSeeds
  by_cases hauthority : authority = []
  · rw [if_pos hauthority]
    exact iff_of_false (not_faulty_ok _) fun h => h.1 hauthority
  · rw [if_neg hauthority, faulty_mapM]
    simp only [faulty_strictUnquote]
    exact ⟨fun h => ⟨hauthority, h⟩, fun h => h.2⟩

theorem not_faulty_checkSeeds (seeds : List Text) : ¬Faulty PyError.Own (checkSeeds seeds) := by
  unfold checkSeeds
  intro h
  obtain ⟨-, h⟩ := faulty_demand_bind.1 h
  obtain ⟨-, h⟩ := faulty_demand_bind.1 h
  exact not_faulty_demand _ _ h

theorem not_faulty_splitSeed (seed : Text) : ¬Faulty PyError.Own (splitSeed seed) := by
  unfold splitSeed
  split
  · split
    · exact not_faulty_ok _
    · exact not_faulty_error trivial
  · split
    · exact not_faulty_error trivial
    · split
      · exact not_faulty_error trivial
      · exact not_faulty_ok _

theorem faulty_validateTcpSeed {seed : Text} :
    Faulty PyError.Own (validateTcpSeed py seed) ↔
      ∃ host portText, splitSeed seed = .ok (host, portText) ∧ host ≠ [] ∧ Unreadable py portText := by
  unfold validateTcpSeed
  rw [faulty_bind, or_iff_left fun ⟨_, _, h⟩ => not_faulty_ok _ h]
  unfold readTcpSeed
  rw [faulty_bind, or_iff_right (not_faulty_splitSeed seed)]
  have hread (host portText : Text) : Faulty PyError.Own (do
        demand (.emptyHost seed) (host ≠ [])
        demand (.invalidPort seed) (py.isdigit portText = true)
        let port ← py.toInt portText
        demand (.invalidPort seed) (1 ≤ port ∧ port ≤ 65535)
        .ok (host, port) : Except PyError (Text × ℕ)) ↔ host ≠ [] ∧ Unreadable py portText := by
    rw [faulty_demand_bind, faulty_demand_bind, faulty_bind, faulty_toInt, or_iff_left]
    · rfl
    · rintro ⟨port, -, h⟩
      exact not_faulty_ok _ (faulty_demand_bind.1 h).2
  constructor
  · rintro ⟨⟨host, portText⟩, hsplit, h⟩
    exact ⟨host, portText, hsplit, (hread host portText).1 h⟩
  · rintro ⟨host, portText, hsplit, h⟩
    exact ⟨(host, portText), hsplit, (hread host portText).2 h⟩

theorem not_faulty_validateUnixEndpoint (endpoint : Text) :
    ¬Faulty PyError.Own (validateUnixEndpoint py endpoint) := by
  unfold validateUnixEndpoint
  intro h
  rcases faulty_bind.1 h with h | ⟨u, -, h⟩
  · exact not_faulty_require trivial _ h
  · obtain ⟨-, h⟩ := faulty_demand_bind.1 h
    obtain ⟨-, h⟩ := faulty_demand_bind.1 h
    exact not_faulty_ok _ h

theorem faulty_validateSeeds {authority : Text} {seeds : List Text} :
    Faulty PyError.Own (validateSeeds py authority seeds) ↔ (¬∃ seed ∈ seeds, IsUnix seed) ∧
      ∃ before seed after results, seeds = before ++ seed :: after ∧
        before.mapM (validateTcpSeed py) = .ok results ∧
        ∃ host portText, splitSeed seed = .ok (host, portText) ∧ host ≠ [] ∧ Unreadable py portText := by
  unfold validateSeeds
  by_cases hunix : ∃ seed ∈ seeds, IsUnix seed
  · rw [if_pos hunix]
    refine iff_of_false ?_ fun h => h.1 hunix
    intro h
    obtain ⟨-, h⟩ := faulty_demand_bind.1 h
    obtain ⟨-, h⟩ := faulty_demand_bind.1 h
    rcases faulty_bind.1 h with h | ⟨endpoint, -, h⟩
    · exact not_faulty_validateUnixEndpoint _ h
    · exact not_faulty_ok _ h
  · rw [if_neg hunix, faulty_bind, or_iff_left fun ⟨_, _, h⟩ => not_faulty_ok _ h, faulty_mapM]
    simp only [faulty_validateTcpSeed]
    exact ⟨fun h => ⟨hunix, h⟩, fun h => h.2⟩

theorem faulty_unsignedOption {options : Options} {name : Text} :
    Faulty PyError.Own (unsignedOption py options name) ↔
      ∃ value, options.lookup name = some value ∧ Unreadable py value := by
  unfold unsignedOption
  cases options.lookup name with
  | none =>
    refine iff_of_false (not_faulty_ok _) ?_
    rintro ⟨value, h, -⟩
    cases h
  | some value =>
    dsimp only
    rw [faulty_bind, or_iff_left fun ⟨_, _, h⟩ => not_faulty_ok _ h, parseUnsigned, faulty_demand_bind,
      faulty_toInt]
    constructor
    · intro h
      exact ⟨value, rfl, h⟩
    · rintro ⟨given, heq, h⟩
      cases heq
      exact h

theorem faulty_readOptions {seeds : List Text} {options : Options} :
    Faulty PyError.Own (readOptions py seeds options) ↔
      (∀ given ∈ options.lookup (text "read_level"), given ∈ readLevels) ∧
      (∀ given ∈ options.lookup (text "read_policy"), given ∈ readPolicies) ∧
      ∃ before name after results, unsignedOptions = before ++ name :: after ∧
        before.mapM (unsignedOption py options) = .ok results ∧
        ∃ value, options.lookup name = some value ∧ Unreadable py value := by
  unfold readOptions
  dsimp only
  rw [faulty_demand_bind, faulty_demand_bind, faulty_bind, or_iff_left fun ⟨_, _, h⟩ => not_faulty_ok _ h,
    faulty_mapM]
  simp only [faulty_unsignedOption]

/-! ### The whole -/

/-- The seeds of an address whose options were read. -/
theorem faulty_gatherRest (authority query : Text) :
    Faulty PyError.Own (do
        let (options, querySeeds) ← readPairs authority query
        let seeds ← readSeeds authority querySeeds
        checkSeeds seeds
        .ok (authority, options, seeds) : Except PyError (Text × Options × List Text)) ↔
      Faulty PyError.Own (readPairs authority query) ∨
        ∃ state, readPairs authority query = .ok state ∧ Faulty PyError.Own (readSeeds authority state.2) := by
  rw [faulty_bind]
  refine or_congr Iff.rfl (exists_congr fun state => and_congr_right fun _ => ?_)
  rw [faulty_bind, or_iff_left]
  rintro ⟨seeds, -, h⟩
  rcases faulty_bind.1 h with h | ⟨u, -, h⟩
  · exact not_faulty_checkSeeds seeds h
  · exact not_faulty_ok _ h

theorem faulty_gather {dsn : Text} :
    Faulty PyError.Own (gather dsn) ↔ OptionUndecodable dsn ∨ SeedUndecodable dsn := by
  unfold gather OptionUndecodable SeedUndecodable
  rw [faulty_bind, or_iff_right (not_faulty_splitDsn dsn)]
  constructor
  · rintro ⟨⟨authority, query⟩, hsplit, h⟩
    rcases (faulty_gatherRest authority query).1 h with h | ⟨state, hstate, h⟩
    · exact .inl ⟨authority, query, hsplit, faulty_readPairs.1 h⟩
    · exact .inr ⟨authority, query, state, hsplit, hstate, faulty_readSeeds.1 h⟩
  · rintro (⟨authority, query, hsplit, h⟩ | ⟨authority, query, state, hsplit, hstate, h⟩)
    · exact ⟨(authority, query), hsplit,
        (faulty_gatherRest authority query).2 (.inl (faulty_readPairs.2 h))⟩
    · exact ⟨(authority, query), hsplit,
        (faulty_gatherRest authority query).2 (.inr ⟨state, hstate, faulty_readSeeds.2 h⟩)⟩

/-- **Parsing ends in a foreign exception exactly at one of the four places.** -/
theorem faulty_parseRemoteDsn {dsn : Text} :
    Faulty PyError.Own (parseRemoteDsn py dsn) ↔
      (OptionUndecodable dsn ∨ SeedUndecodable dsn) ∨ PortUnreadable py dsn ∨ NumberUnreadable py dsn := by
  unfold parseRemoteDsn PortUnreadable NumberUnreadable
  rw [faulty_bind, faulty_gather]
  refine or_congr Iff.rfl ?_
  have hrest (authority : Text) (options : Options) (seeds : List Text) : Faulty PyError.Own (do
        validateSeeds py authority seeds
        readOptions py seeds options : Except PyError Parsed) ↔
      Faulty PyError.Own (validateSeeds py authority seeds) ∨
        validateSeeds py authority seeds = .ok () ∧ Faulty PyError.Own (readOptions py seeds options) := by
    rw [faulty_bind]
    refine or_congr Iff.rfl ?_
    constructor
    · rintro ⟨⟨⟩, h⟩
      exact h
    · intro h
      exact ⟨(), h⟩
  constructor
  · rintro ⟨⟨authority, options, seeds⟩, hgather, h⟩
    rcases (hrest authority options seeds).1 h with h | ⟨hvalid, h⟩
    · exact .inl ⟨authority, options, seeds, hgather, faulty_validateSeeds.1 h⟩
    · exact .inr ⟨authority, options, seeds, hgather, hvalid, faulty_readOptions.1 h⟩
  · rintro (⟨authority, options, seeds, hgather, h⟩ | ⟨authority, options, seeds, hgather, hvalid, h⟩)
    · exact ⟨(authority, options, seeds), hgather,
        (hrest authority options seeds).2 (.inl (faulty_validateSeeds.2 h))⟩
    · exact ⟨(authority, options, seeds), hgather,
        (hrest authority options seeds).2 (.inr ⟨hvalid, faulty_readOptions.2 h⟩)⟩

end Dsn

end Zaxonlite
