import Mathlib.Data.List.TakeWhile
import Zaxonlite.Client.DsnFaults

/-!
# Seeds, as they are read and as they are heard

The seeds of an accepted DSN are a list of TCP addresses or one unix path. What the native client makes of
an address is what Python read from it unless the address is a bracketed one, holds a NUL or a character
that UTF-8 has no bytes for, or has a port of digits outside ASCII.
-/

namespace Zaxonlite

namespace Dsn

open Checked (bind_eq_ok require)
open Faults Json

variable {py : Python}

/-- The native client accepts the seed, with the host and the port that were read from it. -/
def HeardAsRead (py : Python) (seed : Text) : Prop :=
  ∃ host port bytes, readTcpSeed py seed = .ok (host, port) ∧ heard seed = some bytes ∧
    Endpoint.parse bytes = some ⟨host.flatMap encodeUtf8, port, none⟩

/-- Something in the seed is lost or read differently on the way to the native client. -/
def Altered (seed : Text) : Prop :=
  seed.head? = some 91 ∨ 0 ∈ seed ∨ (∃ c ∈ seed, ¬Encodable c) ∨
    ∃ host portText, splitSeed seed = .ok (host, portText) ∧ ∃ c ∈ portText, 128 ≤ c

/-- One to 36 different seeds, all of them TCP addresses or one an absolute unix path. -/
structure SeedList (py : Python) (seeds : List Text) : Prop where
  nonempty : seeds ≠ []
  nodup : seeds.Nodup
  length_le : seeds.length ≤ 36
  kind : (∀ seed ∈ seeds, ¬IsUnix seed ∧ ∃ host port, readTcpSeed py seed = .ok (host, port)) ∨
    ∃ path, seeds = [unixPrefix ++ path] ∧ path.head? = some 47

/-! ### UTF-8 -/

theorem encodeUtf8_ascii {c : ℕ} (h : c < 128) : encodeUtf8 c = [UInt8.ofNat c] :=
  if_pos h

theorem le_ofNat_of_encodable {c : ℕ} (h : Encodable c) (hc : 128 ≤ c) :
    encodeUtf8 c ≠ [] ∧ ∀ b ∈ encodeUtf8 c, 128 ≤ b.toNat := by
  have hlt : c < 0x110000 := by
    rcases h with h | h
    · omega
    · exact h.2
  unfold encodeUtf8
  rw [if_neg (by omega)]
  have hbyte {n : ℕ} (hlow : 128 ≤ n) (hhigh : n < 256) : 128 ≤ (UInt8.ofNat n).toNat := by
    rw [UInt8.toNat_ofNat', Nat.mod_eq_of_lt (by omega)]
    exact hlow
  split_ifs with h2 h3
  · refine ⟨List.cons_ne_nil _ _, ?_⟩
    simp only [List.forall_mem_cons, List.not_mem_nil, IsEmpty.forall_iff, implies_true, and_true]
    exact ⟨hbyte (by omega) (by omega), hbyte (by omega) (by omega)⟩
  · refine ⟨List.cons_ne_nil _ _, ?_⟩
    simp only [List.forall_mem_cons, List.not_mem_nil, IsEmpty.forall_iff, implies_true, and_true]
    exact ⟨hbyte (by omega) (by omega), hbyte (by omega) (by omega), hbyte (by omega) (by omega)⟩
  · refine ⟨List.cons_ne_nil _ _, ?_⟩
    simp only [List.forall_mem_cons, List.not_mem_nil, IsEmpty.forall_iff, implies_true, and_true]
    exact ⟨hbyte (by omega) (by omega), hbyte (by omega) (by omega), hbyte (by omega) (by omega),
      hbyte (by omega) (by omega)⟩

theorem encodeUtf8_ne_nil {c : ℕ} (h : Encodable c) : encodeUtf8 c ≠ [] := by
  by_cases hc : c < 128
  · rw [encodeUtf8_ascii hc]
    exact List.cons_ne_nil _ _
  · exact (le_ofNat_of_encodable h (Nat.le_of_not_lt hc)).1

theorem mem_encode_ascii {seed : Text} (hall : ∀ c ∈ seed, Encodable c) {b : UInt8} (hb : b.toNat < 128) :
    b ∈ seed.flatMap encodeUtf8 ↔ b.toNat ∈ seed := by
  rw [List.mem_flatMap]
  constructor
  · rintro ⟨c, hc, hmem⟩
    by_cases hlt : c < 128
    · rw [encodeUtf8_ascii hlt, List.mem_singleton] at hmem
      rw [hmem, UInt8.toNat_ofNat', Nat.mod_eq_of_lt (by omega)]
      exact hc
    · have := (le_ofNat_of_encodable (hall c hc) (Nat.le_of_not_lt hlt)).2 b hmem
      omega
  · intro hmem
    refine ⟨b.toNat, hmem, ?_⟩
    rw [encodeUtf8_ascii hb, UInt8.ofNat_toNat]
    exact List.mem_singleton_self b

/-- A text that starts with ASCII bytes starts with their characters. -/
theorem isPrefix_of_encode {lead : List UInt8} {seed : Text} (hall : ∀ c ∈ seed, Encodable c)
    (hlead : ∀ b ∈ lead, b.toNat < 128) (h : lead <+: seed.flatMap encodeUtf8) :
    lead.map UInt8.toNat <+: seed := by
  induction lead generalizing seed with
  | nil => exact List.nil_prefix
  | cons b lead ih =>
    cases seed with
    | nil => exact absurd (List.prefix_nil.1 h) (List.cons_ne_nil _ _)
    | cons c seed =>
      obtain ⟨hc, hseed⟩ := List.forall_mem_cons.1 hall
      obtain ⟨hb, hrest⟩ := List.forall_mem_cons.1 hlead
      rw [List.flatMap_cons] at h
      by_cases hlt : c < 128
      · rw [encodeUtf8_ascii hlt, List.singleton_append, List.cons_prefix_cons] at h
        obtain ⟨hbyte, h⟩ := h
        rw [List.map_cons, List.cons_prefix_cons, hbyte, UInt8.toNat_ofNat', Nat.mod_eq_of_lt (by omega)]
        exact ⟨rfl, ih hseed hrest h⟩
      · obtain ⟨hne, hhigh⟩ := le_ofNat_of_encodable hc (Nat.le_of_not_lt hlt)
        obtain ⟨first, bytes, hbytes⟩ := List.exists_cons_of_ne_nil hne
        rw [hbytes, List.cons_append, List.cons_prefix_cons] at h
        have := hhigh first (by rw [hbytes]; exact List.mem_cons_self)
        rw [← h.1] at this
        omega

theorem heard_eq {seed : Text} (hall : ∀ c ∈ seed, Encodable c) (hnul : 0 ∉ seed) :
    heard seed = some (seed.flatMap encodeUtf8) := by
  rw [heard, if_pos hall, Option.some.injEq, List.takeWhile_eq_self_iff]
  intro b hb
  rw [decide_eq_true_iff]
  rintro rfl
  exact hnul ((mem_encode_ascii hall (by decide)).1 hb)

/-! ### How a seed is split -/

theorem partition_cons (c x : ℕ) (rest : Text) :
    partition c (x :: rest) =
      if x = c then ([], some rest) else (x :: (partition c rest).1, (partition c rest).2) := by
  unfold partition
  by_cases hx : x = c
  · have hno : ¬decide (x ≠ c) = true := by
      rw [decide_eq_true_iff]
      exact not_not_intro hx
    rw [List.dropWhile_cons, if_neg hno, if_pos hx]
    show ((x :: rest).takeWhile fun y => decide (y ≠ c), some rest) = _
    rw [List.takeWhile_cons, if_neg hno]
  · have hyes : decide (x ≠ c) = true := decide_eq_true hx
    rw [List.dropWhile_cons, if_pos hyes, List.takeWhile_cons, if_pos hyes, if_neg hx]
    cases rest.dropWhile fun y => decide (y ≠ c) with
    | nil => rfl
    | cons y tail => rfl

theorem partition_eq {c : ℕ} {value front back : Text} :
    partition c value = (front, some back) ↔ value = front ++ c :: back ∧ c ∉ front := by
  induction value generalizing front with
  | nil =>
    rw [partition_nil]
    constructor
    · intro h
      cases h
    · intro h
      exact absurd h.1 (by simp)
  | cons x rest ih =>
    rw [partition_cons]
    by_cases hx : x = c
    · subst hx
      rw [if_pos rfl, Prod.mk.injEq, Option.some.injEq]
      constructor
      · rintro ⟨rfl, rfl⟩
        exact ⟨rfl, List.not_mem_nil⟩
      · rintro ⟨heq, hmem⟩
        cases front with
        | nil => exact ⟨rfl, (List.cons.inj heq).2⟩
        | cons y front =>
          obtain ⟨rfl, -⟩ := List.cons.inj heq
          exact absurd List.mem_cons_self hmem
    · rw [if_neg hx, Prod.mk.injEq]
      constructor
      · rintro ⟨rfl, hback⟩
        obtain ⟨heq, hmem⟩ := ih.1 (Prod.ext rfl hback)
        refine ⟨by rw [List.cons_append, ← heq], ?_⟩
        rw [List.mem_cons, not_or]
        exact ⟨fun h => hx h.symm, hmem⟩
      · rintro ⟨heq, hmem⟩
        cases front with
        | nil => exact absurd (List.cons.inj heq).1 hx
        | cons y front =>
          obtain ⟨rfl, rfl⟩ := List.cons.inj heq
          rw [List.mem_cons, not_or] at hmem
          have hrest := ih.2 ⟨rfl, hmem.2⟩
          rw [hrest]
          exact ⟨rfl, rfl⟩

theorem rpartition_eq {c : ℕ} {value front back : Text} (h : rpartition c value = some (front, back)) :
    value = front ++ c :: back ∧ c ∉ back := by
  unfold rpartition at h
  split at h
  · cases h
  · rename_i back' front' hpartition
    obtain ⟨heq, hmem⟩ := partition_eq.1 hpartition
    rw [Option.some.injEq, Prod.mk.injEq] at h
    obtain ⟨rfl, rfl⟩ := h
    refine ⟨?_, ?_⟩
    · rw [← List.reverse_reverse value, heq, List.reverse_append, List.reverse_cons, List.append_assoc]
      rfl
    · rw [List.mem_reverse]
      exact hmem

/-- A seed is a host, a colon and a port text, or the host stands in brackets. -/
theorem splitSeed_eq_ok {seed host portText : Text} (h : splitSeed seed = .ok (host, portText)) :
    seed = 91 :: host ++ 93 :: 58 :: portText ∧ seed.head? = some 91 ∨
      seed = host ++ 58 :: portText ∧ seed.head? ≠ some 91 := by
  unfold splitSeed at h
  split at h
  · rename_i hhead
    split at h
    · rename_i front portText' hpartition
      rw [Except.ok.injEq, Prod.mk.injEq] at h
      obtain ⟨rfl, rfl⟩ := h
      obtain ⟨tail, rfl⟩ := List.head?_eq_some_iff.1 hhead
      exact .inl ⟨congrArg (91 :: ·) (partition_eq.1 hpartition).1, hhead⟩
    · cases h
  · rename_i hhead
    split at h
    · cases h
    · rename_i front back hpartition
      split at h
      · cases h
      · rw [Except.ok.injEq, Prod.mk.injEq] at h
        obtain ⟨rfl, rfl⟩ := h
        exact .inr ⟨(rpartition_eq hpartition).1, hhead⟩

/-! ### A seed that Python accepts -/

/-- The port text of an accepted seed: digits, of a number that is a port. -/
structure Accepted (py : Python) (seed host portText : Text) (port : ℕ) : Prop where
  split : splitSeed seed = .ok (host, portText)
  host_ne_nil : host ≠ []
  digits : py.isdigit portText = true
  int : py.int portText = some port
  port_pos : 1 ≤ port
  port_le : port ≤ 65535

theorem readTcpSeed_eq_ok {seed host : Text} {port : ℕ} :
    readTcpSeed py seed = .ok (host, port) ↔ ∃ portText, Accepted py seed host portText port := by
  unfold readTcpSeed
  rw [bind_eq_ok]
  constructor
  · rintro ⟨⟨front, portText⟩, hsplit, h⟩
    obtain ⟨hhost, h⟩ := demand_bind_eq_ok.1 h
    obtain ⟨hdigits, h⟩ := demand_bind_eq_ok.1 h
    obtain ⟨n, hn, h⟩ := bind_eq_ok.1 h
    obtain ⟨⟨hpos, hle⟩, h⟩ := demand_bind_eq_ok.1 h
    rw [Except.ok.injEq, Prod.mk.injEq] at h
    obtain ⟨rfl, rfl⟩ := h
    exact ⟨portText, hsplit, hhost, hdigits, toInt_eq_ok.1 hn, hpos, hle⟩
  · rintro ⟨portText, h⟩
    refine ⟨(host, portText), h.split, demand_bind_eq_ok.2 ⟨h.host_ne_nil, ?_⟩⟩
    refine demand_bind_eq_ok.2 ⟨h.digits, bind_eq_ok.2 ⟨port, toInt_eq_ok.2 h.int, ?_⟩⟩
    exact demand_bind_eq_ok.2 ⟨⟨h.port_pos, h.port_le⟩, rfl⟩

theorem Accepted.digit_of_mem {seed host portText : Text} {port c : ℕ}
    (h : Accepted py seed host portText port) (hc : c ∈ portText) (hlt : c < 128) : 48 ≤ c ∧ c ≤ 57 := by
  have hdigits := h.digits
  unfold Python.isdigit at hdigits
  rw [Bool.and_eq_true, List.all_eq_true] at hdigits
  exact py.isDigit_ascii c hlt (hdigits.2 c hc)

theorem Accepted.unique {seed host host' portText portText' : Text} {port port' : ℕ}
    (h : Accepted py seed host portText port) (h' : Accepted py seed host' portText' port') :
    host = host' ∧ portText = portText' ∧ port = port' := by
  have hsplit := h.split.symm.trans h'.split
  rw [Except.ok.injEq, Prod.mk.injEq] at hsplit
  obtain ⟨rfl, rfl⟩ := hsplit
  exact ⟨rfl, rfl, Option.some.inj (h.int.symm.trans h'.int)⟩

theorem foldlM_digit {portText : Text} (hdigits : ∀ c ∈ portText, 48 ≤ c ∧ c ≤ 57) (acc : ℕ) :
    portText.foldlM py.digit acc = some ((portText.map UInt8.ofNat).foldl Decimal.append acc) := by
  induction portText generalizing acc with
  | nil => rfl
  | cons c portText ih =>
    obtain ⟨hc, hrest⟩ := List.forall_mem_cons.1 hdigits
    have hbyte : (UInt8.ofNat c).toNat = c := by
      rw [UInt8.toNat_ofNat', Nat.mod_eq_of_lt (by omega)]
    have hunder : UInt8.ofNat c ≠ 95 := by
      intro heq
      rw [heq] at hbyte
      have : (95 : UInt8).toNat = 95 := rfl
      omega
    have hstep : py.digit acc c = some (Decimal.append acc (UInt8.ofNat c)) := by
      rw [Python.digit, py.decimal_ascii c hc.1 hc.2, Option.map_some, Decimal.append, if_neg hunder, hbyte]
    rw [List.foldlM_cons, hstep, List.map_cons, List.foldl_cons]
    exact ih hrest _

end Dsn

end Zaxonlite
