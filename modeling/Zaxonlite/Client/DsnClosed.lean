import Zaxonlite.Client.DsnSeeds

/-!
# What a DSN comes to

Parsing is closed under the errors of the driver and means what the native client hears, except at the four
places where it is at fault and for the seeds that are altered on their way.
-/

namespace Zaxonlite

namespace Dsn

open Checked (bind_eq_ok require)
open Faults Json
open Decimal (Signed)

variable {py : Python}

/-! ### The native parser -/

theorem parse_eq_some {bytes host : List UInt8} {port : ℕ} :
    Endpoint.parse bytes = some ⟨host, port, none⟩ ↔ ¬asciiBytes "unix:" <+: bytes ∧
      ∃ portText, bytes = host ++ 58 :: portText ∧ host ≠ [] ∧ Signed 65535 portText port := by
  unfold Endpoint.parse
  cases hdrop : bytes.dropPrefix? (asciiBytes "unix:") with
  | some path =>
    obtain ⟨lead, heq, hlead⟩ := List.dropPrefix?_eq_some_iff.1 hdrop
    have hfront : asciiBytes "unix:" <+: bytes := by
      rw [heq, eq_of_beq hlead]
      exact List.prefix_append _ _
    refine iff_of_false ?_ fun h => h.1 hfront
    dsimp only
    split
    · exact fun h => by cases h
    · exact fun h => by cases h
  | none =>
    have hfront : ¬asciiBytes "unix:" <+: bytes := by
      rintro ⟨path, heq⟩
      have hsome : bytes.dropPrefix? (asciiBytes "unix:") = some path :=
        List.dropPrefix?_eq_some_iff.2 ⟨_, heq.symm, beq_self_eq_true _⟩
      rw [hdrop] at hsome
      cases hsome
    dsimp only
    rw [Option.bind_eq_bind, Option.bind_eq_some_iff]
    constructor
    · rintro ⟨⟨front, portText⟩, hsplit, h⟩
      rw [Option.bind_eq_bind, Option.bind_eq_some_iff] at h
      obtain ⟨n, hn, h⟩ := h
      rw [Option.ite_none_left_eq_some, Option.some.injEq, Endpoint.mk.injEq] at h
      obtain ⟨hne, rfl, rfl, -⟩ := h
      exact ⟨hfront, portText, (splitLast_eq_some.1 hsplit).1,
        fun heq => hne (List.length_eq_zero_iff.2 heq), Decimal.parseInt_eq_some.1 hn⟩
    · rintro ⟨-, portText, heq, hne, hsigned⟩
      have hcolon : (58 : UInt8) ∉ portText := hsigned.not_mem (by decide) (by decide) (by decide)
      refine ⟨(host, portText), splitLast_eq_some.2 ⟨heq, hcolon⟩, ?_⟩
      rw [Option.bind_eq_bind, Option.bind_eq_some_iff]
      refine ⟨port, Decimal.parseInt_eq_some.2 hsigned, ?_⟩
      rw [if_neg fun hlen => hne (List.length_eq_zero_iff.1 hlen)]

/-! ### An accepted seed -/

section Accepted

variable {seed host portText : Text} {port : ℕ}

theorem Accepted.nul_mem_host (h : Accepted py seed host portText port) (hnul : 0 ∈ seed) : 0 ∈ host := by
  have hport : 0 ∉ portText := by
    intro hmem
    have := h.digit_of_mem hmem (by decide)
    omega
  rcases splitSeed_eq_ok h.split with ⟨rfl, -⟩ | ⟨rfl, -⟩
  · simpa [hport] using hnul
  · simpa [hport] using hnul

theorem Accepted.colon_not_mem (h : Accepted py seed host portText port)
    (hall : ∀ c ∈ portText, Encodable c) : (58 : UInt8) ∉ portText.flatMap encodeUtf8 := by
  rw [mem_encode_ascii hall (by decide)]
  intro hmem
  have : 58 ≤ 57 := (h.digit_of_mem hmem (by decide)).2
  omega

theorem encode_plain (heq : seed = host ++ 58 :: portText) :
    seed.flatMap encodeUtf8 = host.flatMap encodeUtf8 ++ 58 :: portText.flatMap encodeUtf8 := by
  rw [heq, List.flatMap_append, List.flatMap_cons, encodeUtf8_ascii (by decide)]
  rfl

theorem encode_bracketed (heq : seed = 91 :: host ++ 93 :: 58 :: portText) :
    seed.flatMap encodeUtf8 =
      (91 :: host.flatMap encodeUtf8 ++ [93]) ++ 58 :: portText.flatMap encodeUtf8 := by
  rw [heq, List.flatMap_append, List.flatMap_cons, List.flatMap_cons, List.flatMap_cons,
    encodeUtf8_ascii (by decide), encodeUtf8_ascii (by decide), encodeUtf8_ascii (by decide)]
  simp

theorem HeardAsRead.not_altered (hheardAs : HeardAsRead py seed) (h : Accepted py seed host portText port) :
    ¬Altered seed := by
  obtain ⟨host', port', bytes, hread, hheard, hparse⟩ := hheardAs
  obtain ⟨portText', h'⟩ := readTcpSeed_eq_ok.1 hread
  obtain ⟨rfl, rfl, rfl⟩ := h.unique h'
  obtain ⟨-, portBytes, hbytes, -, hsigned⟩ := parse_eq_some.1 hparse
  have hall : ∀ c ∈ seed, Encodable c := by
    by_contra hno
    rw [heard, if_neg hno] at hheard
    cases hheard
  have hhost : ∀ c ∈ host, c ∈ seed := by
    rcases splitSeed_eq_ok h.split with ⟨rfl, -⟩ | ⟨rfl, -⟩
    · exact fun c hc => List.mem_append_left _ (List.mem_cons_of_mem _ hc)
    · exact fun c hc => List.mem_append_left _ hc
  have hnul : 0 ∉ seed := by
    intro hmem
    have hbyte : (0 : UInt8) ∈ host.flatMap encodeUtf8 :=
      (mem_encode_ascii (fun c hc => hall c (hhost c hc)) (by decide)).2 (h.nul_mem_host hmem)
    rw [heard, if_pos hall, Option.some.injEq] at hheard
    have hin : (0 : UInt8) ∈ (seed.flatMap encodeUtf8).takeWhile (· ≠ 0) := by
      rw [hheard, hbytes]
      exact List.mem_append_left _ hbyte
    exact absurd (List.mem_takeWhile_imp hin) (by decide)
  rw [heard_eq hall hnul, Option.some.injEq] at hheard
  have hsplit : splitLast 58 (seed.flatMap encodeUtf8) = some (host.flatMap encodeUtf8, portBytes) :=
    splitLast_eq_some.2 ⟨hheard.trans hbytes, hsigned.not_mem (by decide) (by decide) (by decide)⟩
  have hportAll (hmem : ∀ c ∈ portText, c ∈ seed) : ∀ c ∈ portText, Encodable c :=
    fun c hc => hall c (hmem c hc)
  rcases splitSeed_eq_ok h.split with ⟨heq, hhead⟩ | ⟨heq, hhead⟩
  · have hport := hportAll fun c hc => by rw [heq]; simp [hc]
    have hsame := splitLast_eq_some.2 ⟨encode_bracketed heq, h.colon_not_mem hport⟩
    rw [hsplit, Option.some.injEq, Prod.mk.injEq] at hsame
    have hlen := congrArg List.length hsame.1
    rw [List.length_append, List.length_cons, List.length_singleton] at hlen
    omega
  · have hport := hportAll fun c hc => by rw [heq]; simp [hc]
    have hsame := splitLast_eq_some.2 ⟨encode_plain heq, h.colon_not_mem hport⟩
    rw [hsplit, Option.some.injEq, Prod.mk.injEq] at hsame
    rintro (hbracket | hzero | ⟨c, hc, hno⟩ | ⟨host', portText', hsplit', c, hc, hle⟩)
    · exact hhead hbracket
    · exact hnul hzero
    · exact hno (hall c hc)
    · have hsame' := h.split.symm.trans hsplit'
      rw [Except.ok.injEq, Prod.mk.injEq] at hsame'
      obtain ⟨rfl, rfl⟩ := hsame'
      obtain ⟨hne, hhigh⟩ := le_ofNat_of_encodable (hport c hc) hle
      obtain ⟨b, hb⟩ := List.exists_mem_of_ne_nil _ hne
      have hmem : b ∈ portBytes := by
        rw [hsame.2]
        exact List.mem_flatMap.2 ⟨c, hc, hb⟩
      have hbyte := hhigh b hb
      have hnot (d : UInt8) (hd : d.toNat < 128) : b ≠ d := by
        rintro rfl
        omega
      refine hsigned.not_mem ?_ (hnot 43 (by decide)) (hnot 45 (by decide)) hmem
      rintro (hunder | hdigit)
      · exact hnot 95 (by decide) hunder
      · omega

theorem encode_digits (hdigits : ∀ c ∈ portText, 48 ≤ c ∧ c ≤ 57) :
    portText.flatMap encodeUtf8 = portText.map UInt8.ofNat := by
  induction portText with
  | nil => rfl
  | cons c portText ih =>
    obtain ⟨hc, hrest⟩ := List.forall_mem_cons.1 hdigits
    rw [List.flatMap_cons, encodeUtf8_ascii (by omega), ih hrest]
    rfl

theorem Accepted.heardAsRead (h : Accepted py seed host portText port) (hunix : ¬IsUnix seed)
    (haltered : ¬Altered seed) : HeardAsRead py seed := by
  unfold Altered at haltered
  rw [not_or, not_or, not_or] at haltered
  obtain ⟨hhead, hnul, hencodable, hascii⟩ := haltered
  have hall : ∀ c ∈ seed, Encodable c := by
    intro c hc
    by_contra hno
    exact hencodable ⟨c, hc, hno⟩
  have heq : seed = host ++ 58 :: portText := by
    rcases splitSeed_eq_ok h.split with ⟨-, hbracket⟩ | ⟨heq, -⟩
    · exact absurd hbracket hhead
    · exact heq
  have hdigits : ∀ c ∈ portText, 48 ≤ c ∧ c ≤ 57 := by
    intro c hc
    refine h.digit_of_mem hc ?_
    by_contra hge
    exact hascii ⟨host, portText, h.split, c, hc, Nat.le_of_not_lt hge⟩
  have hint : portText.foldlM py.digit 0 = some port := by
    have hint := h.int
    rw [Python.int, Option.ite_none_left_eq_some] at hint
    exact hint.2
  have hvalue : Decimal.value (portText.map UInt8.ofNat) = port :=
    Option.some.inj ((foldlM_digit hdigits 0).symm.trans hint)
  have hnumeral : Decimal.Numeral (portText.map UInt8.ofNat) := by
    refine Decimal.numeral_of_digits ?_ ?_
    · rw [ne_eq, List.map_eq_nil_iff]
      rintro rfl
      exact absurd h.digits (by simp [Python.isdigit])
    · intro b hb
      obtain ⟨c, hc, rfl⟩ := List.mem_map.1 hb
      have := hdigits c hc
      rw [UInt8.toNat_ofNat', Nat.mod_eq_of_lt (by omega)]
      exact this
  have hsigned := Signed.plain hnumeral (hvalue.symm ▸ h.port_le)
  rw [hvalue] at hsigned
  refine ⟨host, port, _, readTcpSeed_eq_ok.2 ⟨portText, h⟩, heard_eq hall hnul, parse_eq_some.2 ⟨?_, ?_⟩⟩
  · intro hfront
    have hlead : ∀ b ∈ asciiBytes "unix:", b.toNat < 128 := by
      have hplain : (asciiBytes "unix:").all (fun b => b.toNat < 128) = true := by decide
      exact fun b hb => of_decide_eq_true (List.all_eq_true.1 hplain b hb)
    exact hunix (isPrefix_of_encode hall hlead hfront)
  · refine ⟨portText.map UInt8.ofNat, ?_, ?_, hsigned⟩
    · rw [encode_plain heq, encode_digits hdigits]
    · obtain ⟨c, hc⟩ := List.exists_mem_of_ne_nil host h.host_ne_nil
      have hcEncodable : Encodable c := hall c (by rw [heq]; exact List.mem_append_left _ hc)
      obtain ⟨b, hb⟩ := List.exists_mem_of_ne_nil _ (encodeUtf8_ne_nil hcEncodable)
      exact List.ne_nil_of_mem (List.mem_flatMap.2 ⟨c, hc, hb⟩)

/-- **The native client hears an accepted seed as it was read exactly when nothing in it is altered.** -/
theorem heardAsRead_iff (h : Accepted py seed host portText port) (hunix : ¬IsUnix seed) :
    HeardAsRead py seed ↔ ¬Altered seed :=
  ⟨fun hheard => hheard.not_altered h, h.heardAsRead hunix⟩

end Accepted

/-! ### The DSN -/

/-- The parser's promise: its own errors only, and of a DSN it accepts a list of seeds that the native
client hears as they were read. -/
structure Closed (py : Python) (dsn : Text) : Prop where
  own : ∀ e, parseRemoteDsn py dsn = .error e → e.Own
  seeds : ∀ parsed, parseRemoteDsn py dsn = .ok parsed → SeedList py parsed.seeds
  heard : ∀ parsed, parseRemoteDsn py dsn = .ok parsed → ∀ seed ∈ parsed.seeds, ¬IsUnix seed →
    HeardAsRead py seed

/-- The DSN passes every check, and one of its TCP seeds is altered on the way to the native client. -/
def Misheard (py : Python) (dsn : Text) : Prop :=
  ∃ authority options seeds parsed, gather dsn = .ok (authority, options, seeds) ∧
    validateSeeds py authority seeds = .ok () ∧ readOptions py seeds options = .ok parsed ∧
    ∃ seed ∈ seeds, ¬IsUnix seed ∧ Altered seed

/-- None of the ways in which a DSN is misread. -/
structure Plain (py : Python) (dsn : Text) : Prop where
  options : ¬OptionUndecodable dsn
  seeds : ¬SeedUndecodable dsn
  ports : ¬PortUnreadable py dsn
  numbers : ¬NumberUnreadable py dsn
  heard : ¬Misheard py dsn

theorem parseRemoteDsn_eq_ok {dsn : Text} {parsed : Parsed} :
    parseRemoteDsn py dsn = .ok parsed ↔ ∃ authority options seeds,
      gather dsn = .ok (authority, options, seeds) ∧ validateSeeds py authority seeds = .ok () ∧
      readOptions py seeds options = .ok parsed := by
  unfold parseRemoteDsn
  rw [bind_eq_ok]
  constructor
  · rintro ⟨⟨authority, options, seeds⟩, hgather, h⟩
    obtain ⟨⟨⟩, hvalid, hoptions⟩ := bind_eq_ok.1 h
    exact ⟨authority, options, seeds, hgather, hvalid, hoptions⟩
  · rintro ⟨authority, options, seeds, hgather, hvalid, hoptions⟩
    exact ⟨(authority, options, seeds), hgather, bind_eq_ok.2 ⟨(), hvalid, hoptions⟩⟩

theorem seeds_of_readOptions {seeds : List Text} {options : Options} {parsed : Parsed}
    (h : readOptions py seeds options = .ok parsed) : parsed.seeds = seeds := by
  unfold readOptions at h
  obtain ⟨-, h⟩ := demand_bind_eq_ok.1 h
  obtain ⟨-, h⟩ := demand_bind_eq_ok.1 h
  obtain ⟨numbers, -, h⟩ := bind_eq_ok.1 h
  cases h
  rfl

theorem check_of_gather {dsn authority : Text} {options : Options} {seeds : List Text}
    (h : gather dsn = .ok (authority, options, seeds)) :
    (seeds ≠ [] ∧ [] ∉ seeds) ∧ seeds.length ≤ 36 ∧ seeds.Nodup := by
  unfold gather at h
  obtain ⟨⟨front, query⟩, -, h⟩ := bind_eq_ok.1 h
  obtain ⟨⟨given, querySeeds⟩, -, h⟩ := bind_eq_ok.1 h
  obtain ⟨decoded, -, h⟩ := bind_eq_ok.1 h
  obtain ⟨u, hcheck, h⟩ := bind_eq_ok.1 h
  cases h
  unfold checkSeeds at hcheck
  obtain ⟨hne, hcheck⟩ := demand_bind_eq_ok.1 hcheck
  obtain ⟨hlen, hcheck⟩ := demand_bind_eq_ok.1 hcheck
  exact ⟨hne, hlen, demand_eq_ok.1 hcheck⟩

theorem accepted_of_mapM {seeds results : List Text} (h : seeds.mapM (validateTcpSeed py) = .ok results) :
    ∀ seed ∈ seeds, ∃ host port, readTcpSeed py seed = .ok (host, port) := by
  induction seeds generalizing results with
  | nil => exact fun seed hmem => absurd hmem List.not_mem_nil
  | cons seed seeds ih =>
    rw [List.mapM_cons] at h
    obtain ⟨first, hfirst, h⟩ := bind_eq_ok.1 h
    obtain ⟨rest, hrest, -⟩ := bind_eq_ok.1 h
    obtain ⟨⟨host, port⟩, hread, -⟩ := bind_eq_ok.1 hfirst
    exact List.forall_mem_cons.2 ⟨⟨host, port, hread⟩, ih hrest⟩

/-- The seeds that pass the checks are addresses, or one absolute path. -/
theorem kind_of_validateSeeds {authority : Text} {seeds : List Text}
    (h : validateSeeds py authority seeds = .ok ()) :
    (∀ seed ∈ seeds, ¬IsUnix seed ∧ ∃ host port, readTcpSeed py seed = .ok (host, port)) ∨
      ∃ path, seeds = [unixPrefix ++ path] ∧ path.head? = some 47 := by
  unfold validateSeeds at h
  by_cases hunix : ∃ seed ∈ seeds, IsUnix seed
  · rw [if_pos hunix] at h
    obtain ⟨-, h⟩ := demand_bind_eq_ok.1 h
    obtain ⟨hlen, h⟩ := demand_bind_eq_ok.1 h
    obtain ⟨seed, rfl⟩ := List.length_eq_one_iff.1 hlen
    obtain ⟨endpoint, hendpoint, -⟩ := bind_eq_ok.1 h
    unfold validateUnixEndpoint at hendpoint
    obtain ⟨u, -, hendpoint⟩ := bind_eq_ok.1 hendpoint
    obtain ⟨habsolute, -⟩ := demand_bind_eq_ok.1 hendpoint
    obtain ⟨given, hmem, path, rfl⟩ := hunix
    rw [List.mem_singleton] at hmem
    subst hmem
    refine .inr ⟨path, rfl, ?_⟩
    rw [List.headD_cons, List.drop_left] at habsolute
    exact habsolute
  · rw [if_neg hunix] at h
    obtain ⟨results, hresults, -⟩ := bind_eq_ok.1 h
    refine .inl fun seed hmem => ⟨fun his => hunix ⟨seed, hmem, his⟩, ?_⟩
    exact accepted_of_mapM hresults seed hmem

/-- **Parsing is closed and means what the native client hears, but for the five ways of being misread.** -/
theorem closed_iff_plain (py : Python) (dsn : Text) : Closed py dsn ↔ Plain py dsn := by
  have hfaulty : Faulty PyError.Own (parseRemoteDsn py dsn) ↔
      (OptionUndecodable dsn ∨ SeedUndecodable dsn) ∨ PortUnreadable py dsn ∨ NumberUnreadable py dsn :=
    faulty_parseRemoteDsn
  constructor
  · intro h
    have hno : ¬Faulty PyError.Own (parseRemoteDsn py dsn) := by
      rintro ⟨e, he, hforeign⟩
      exact hforeign (h.own e he)
    rw [hfaulty, not_or, not_or, not_or] at hno
    refine ⟨hno.1.1, hno.1.2, hno.2.1, hno.2.2, ?_⟩
    rintro ⟨authority, options, seeds, parsed, hgather, hvalid, hoptions, seed, hmem, hunix, haltered⟩
    have hparsed := parseRemoteDsn_eq_ok.2 ⟨authority, options, seeds, hgather, hvalid, hoptions⟩
    have hheard := h.heard parsed hparsed seed (by rw [seeds_of_readOptions hoptions]; exact hmem) hunix
    obtain ⟨host, port, bytes, hread, -⟩ := id hheard
    obtain ⟨portText, haccepted⟩ := readTcpSeed_eq_ok.1 hread
    exact hheard.not_altered haccepted haltered
  · intro h
    refine ⟨?_, ?_, ?_⟩
    · intro e he
      by_contra hforeign
      rcases hfaulty.1 ⟨e, he, hforeign⟩ with (hoption | hseed) | hport | hnumber
      · exact h.options hoption
      · exact h.seeds hseed
      · exact h.ports hport
      · exact h.numbers hnumber
    · intro parsed hparsed
      obtain ⟨authority, options, seeds, hgather, hvalid, hoptions⟩ := parseRemoteDsn_eq_ok.1 hparsed
      obtain ⟨⟨hne, -⟩, hlen, hnodup⟩ := check_of_gather hgather
      rw [seeds_of_readOptions hoptions]
      exact ⟨hne, hnodup, hlen, kind_of_validateSeeds hvalid⟩
    · intro parsed hparsed seed hmem hunix
      obtain ⟨authority, options, seeds, hgather, hvalid, hoptions⟩ := parseRemoteDsn_eq_ok.1 hparsed
      rw [seeds_of_readOptions hoptions] at hmem
      rcases kind_of_validateSeeds hvalid with htcp | ⟨path, rfl, -⟩
      · obtain ⟨-, host, port, hread⟩ := htcp seed hmem
        obtain ⟨portText, haccepted⟩ := readTcpSeed_eq_ok.1 hread
        refine haccepted.heardAsRead hunix fun haltered => h.heard ?_
        exact ⟨authority, options, seeds, parsed, hgather, hvalid, hoptions, seed, hmem, hunix, haltered⟩
      · rw [List.mem_singleton] at hmem
        exact absurd (hmem ▸ List.prefix_append unixPrefix path) hunix

/-- An interpreter that knows the digits of ASCII, the Arabic ones and three superscripts. -/
def samplePython : Python where
  isDigit c := 48 ≤ c ∧ c ≤ 57 ∨ 0x660 ≤ c ∧ c ≤ 0x669 ∨ c = 0xB2 ∨ c = 0xB3 ∨ c = 0xB9
  decimal c :=
    if 48 ≤ c ∧ c ≤ 57 then some (c - 48) else if 0x660 ≤ c ∧ c ≤ 0x669 then some (c - 0x660) else none
  isDigit_of_decimal c n h := by
    rw [decide_eq_true_iff]
    split_ifs at h
    · omega
    · omega
  isDigit_ascii c hc h := by
    rw [decide_eq_true_iff] at h
    omega
  decimal_ascii c hlow hhigh := if_pos ⟨hlow, hhigh⟩
  maxStrDigits := some 4300
  windows := false

/-- Escapes that are not UTF-8, a superscript port, a bracketed address, an Arabic port and a NUL. -/
theorem sample_dsns_not_closed :
    ¬Closed samplePython (text "zxlite://%FF:1/") ∧ ¬Closed samplePython (text "zxlite://db:²/") ∧
      ¬Closed samplePython (text "zxlite://[::1]:9901/") ∧ ¬Closed samplePython (text "zxlite://db:٣/") ∧
      ¬Closed samplePython (text "zxlite://a%00b:1/") := by
  have hforeign {dsn : Text} {e : PyError} (h : parseRemoteDsn samplePython dsn = .error e) (he : ¬e.Own) :
      ¬Closed samplePython dsn := fun hclosed => he (hclosed.own e h)
  have haltered {dsn seed : Text} (hunix : ¬IsUnix seed) (ha : Altered seed)
      (h : parseRemoteDsn samplePython dsn = .ok ⟨[seed], none, none, [], none⟩) :
      ¬Closed samplePython dsn := by
    intro hclosed
    have hheard := hclosed.heard _ h seed List.mem_cons_self hunix
    obtain ⟨host, port, bytes, hread, -⟩ := id hheard
    obtain ⟨portText, haccepted⟩ := readTcpSeed_eq_ok.1 hread
    exact hheard.not_altered haccepted ha
  have harabic : splitSeed (text "db:٣") = .ok (text "db", [0x663]) := by decide
  refine ⟨hforeign (e := .unicodeDecodeError) (by decide) (by decide),
    hforeign (e := .valueError) (by decide) (by decide), ?_, ?_, ?_⟩
  · have hbracket : Altered (text "[::1]:9901") := .inl (by decide)
    exact haltered (by decide) hbracket (by decide)
  · have hport : Altered (text "db:٣") :=
      .inr (.inr (.inr ⟨_, _, harabic, 0x663, List.mem_singleton_self _, by decide⟩))
    exact haltered (by decide) hport (by decide)
  · have hnul : Altered (text "a\x00b:1") := .inr (.inl (by decide))
    exact haltered (by decide) hnul (by decide)

end Dsn

end Zaxonlite
