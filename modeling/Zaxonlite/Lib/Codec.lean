import Zaxonlite.Lib.Cursor

/-!
# Codecs of whole bodies

A cursor inverts an encoder when it reads every good value back from its encoding and accepts nothing but encodings of
good values. A decoder of a whole body is built from such a cursor in one of three ways: the body has a fixed size, the
cursor must leave nothing, or what it leaves is handed on.
-/

namespace Cursor

variable {ε α β γ : Type}

/-- The cursor reads encodings of good values, and only these. -/
structure Inverts (c : Cursor ε α) (encode : α → List UInt8) (Good : α → Prop) : Prop where
  reads : ∀ a, Good a → Reads c (encode a) a
  writes : Writes c encode Good

/-- The decoder takes encodings of good values, and only these. -/
def Decodes (decode : List UInt8 → Except ε α) (encode : α → List UInt8) (Good : α → Prop) : Prop :=
  ∀ body a, decode body = .ok a ↔ Good a ∧ body = encode a

def exact (e : ε) (size : ℕ) (c : Cursor ε α) (body : List UInt8) : Except ε α :=
  if body.length ≠ size then .error e else (c body).map Prod.fst

def whole (e : ε) (c : Cursor ε α) (body : List UInt8) : Except ε α :=
  (c body).bind fun p => if p.2 = [] then .ok p.1 else .error e

/-- A head, and what is made of the rest of the body. -/
def headed (c : Cursor ε α) (f : α → List UInt8 → Except ε β) (body : List UInt8) : Except ε β :=
  (c body).bind fun p => f p.1 p.2

section Decoders

variable {c : Cursor ε α} {encode : α → List UInt8} {Good : α → Prop} {e : ε} {body : List UInt8}

theorem Inverts.eq_ok_iff (h : Inverts c encode Good) {a : α} {rest : List UInt8} :
    c body = .ok (a, rest) ↔ Good a ∧ body = encode a ++ rest := by
  constructor
  · intro hok
    obtain ⟨used, hbody, hgood, hused⟩ := h.writes body a rest hok
    exact ⟨hgood, hused ▸ hbody⟩
  · rintro ⟨hgood, rfl⟩
    exact h.reads a hgood rest

theorem Inverts.headed_eq_ok_iff (h : Inverts c encode Good) {f : α → List UInt8 → Except ε β} {b : β} :
    headed c f body = .ok b ↔ ∃ a rest, Good a ∧ body = encode a ++ rest ∧ f a rest = .ok b := by
  rw [headed]
  constructor
  · intro hok
    cases hc : c body with
    | error e =>
      rw [hc] at hok
      cases hok
    | ok p =>
      rw [hc] at hok
      obtain ⟨hgood, hbody⟩ := h.eq_ok_iff.1 hc
      exact ⟨p.1, p.2, hgood, hbody, hok⟩
  · rintro ⟨a, rest, hgood, hbody, hf⟩
    rw [h.eq_ok_iff.2 ⟨hgood, hbody⟩]
    exact hf

theorem Inverts.whole (h : Inverts c encode Good) : Decodes (whole e c) encode Good := by
  intro body a
  have hheaded : Cursor.whole e c body = headed c (fun a rest => if rest = [] then .ok a else .error e) body := rfl
  rw [hheaded, h.headed_eq_ok_iff]
  constructor
  · rintro ⟨a', rest, hgood, rfl, hok⟩
    split at hok
    · next hrest =>
      obtain rfl := Except.ok.inj hok
      rw [hrest, List.append_nil]
      exact ⟨hgood, rfl⟩
    · cases hok
  · rintro ⟨hgood, rfl⟩
    exact ⟨a, [], hgood, (List.append_nil _).symm, if_pos rfl⟩

theorem Inverts.exact (h : Inverts c encode Good) {size : ℕ} (hsize : ∀ a, Good a → (encode a).length = size) :
    Decodes (exact e size c) encode Good := by
  intro body a
  rw [Cursor.exact]
  constructor
  · intro hok
    split at hok
    · cases hok
    · next hlength =>
      have hheaded : headed c (fun a _ => .ok a) body = .ok a := hok
      obtain ⟨a', rest, hgood, rfl, heq⟩ := h.headed_eq_ok_iff.1 hheaded
      obtain rfl := Except.ok.inj heq
      rw [not_not, List.length_append, hsize a' hgood] at hlength
      have hrest : rest = [] := List.length_eq_zero_iff.1 (by omega)
      rw [hrest, List.append_nil]
      exact ⟨hgood, rfl⟩
  · rintro ⟨hgood, rfl⟩
    rw [if_neg (not_not.2 (hsize a hgood)), h.eq_ok_iff.2 ⟨hgood, (List.append_nil _).symm⟩]
    rfl

end Decoders

end Cursor
