import Zaxonlite.Lib.Bytes

/-!
# Readers of byte strings

A cursor takes what it needs from the front of a byte string and leaves the rest. `Reads c bytes a` says
that the cursor turns exactly `bytes` into `a`, whatever follows; readings compose the way cursors do,
so a decoder is shown to invert an encoder field by field. `Accepts c Q` is the converse: whatever the
cursor takes for a value stands in the relation `Q` to it, so that a decoder is shown to accept nothing
but encodings.
-/

/-- A reader that may fail. -/
abbrev Cursor (ε α : Type) := StateT (List UInt8) (Except ε) α

namespace Cursor

open Bytes (encodeLe decodeLe)

variable {ε α β : Type}

/-- The next `count` bytes. -/
def take (e : ε) (count : ℕ) : Cursor ε (List UInt8) := fun bytes =>
  if bytes.length < count then .error e else .ok (bytes.take count, bytes.drop count)

def byte (e : ε) : Cursor ε UInt8 := fun bytes =>
  match bytes with
  | [] => .error e
  | b :: rest => .ok (b, rest)

/-- A little-endian integer of `width` bytes. -/
def int (e : ε) (width : ℕ) : Cursor ε ℕ := do
  let bytes ← take e width
  pure (decodeLe bytes)

def fail (e : ε) : Cursor ε α := fun _ => .error e

/-- Fail unless a condition holds. -/
def require (c : Bool) (e : ε) : Cursor ε Unit := fun bytes =>
  if c then .ok ((), bytes) else .error e

/-- `count` readings in a row. -/
def many (c : Cursor ε α) : ℕ → Cursor ε (List α)
  | 0 => pure []
  | count + 1 => do
    let a ← c
    let rest ← many c count
    pure (a :: rest)

/-- A reader whose failures are those of another protocol. -/
def mapError {ε' : Type} (f : ε → ε') (c : Cursor ε α) : Cursor ε' α := fun bytes =>
  (c bytes).mapError f

/-- The cursor turns `bytes`, and nothing after them, into `a`. -/
def Reads (c : Cursor ε α) (bytes : List UInt8) (a : α) : Prop :=
  ∀ rest, c (bytes ++ rest) = .ok (a, rest)

theorem Reads.pure (a : α) : Reads (Pure.pure a : Cursor ε α) [] a :=
  fun _ => rfl

theorem Reads.bind {c : Cursor ε α} {f : α → Cursor ε β} {bytes bytes' : List UInt8} {a : α} {b : β}
    (h : Reads c bytes a) (h' : Reads (f a) bytes' b) : Reads (c >>= f) (bytes ++ bytes') b := by
  intro rest
  show (c (bytes ++ bytes' ++ rest) >>= fun p => f p.1 p.2) = _
  rw [List.append_assoc, h]
  exact h' rest

theorem Reads.last {c : Cursor ε α} {f : α → Cursor ε β} {bytes : List UInt8} {a : α} {b : β}
    (h : Reads c bytes a) (h' : Reads (f a) [] b) : Reads (c >>= f) bytes b := by
  have hall := h.bind h'
  rwa [List.append_nil] at hall

theorem Reads.require {c : Bool} {f : Unit → Cursor ε β} {bytes : List UInt8} {b : β} (e : ε)
    (h : c = true) (h' : Reads (f ()) bytes b) : Reads (Cursor.require c e >>= f) bytes b := by
  have hnone : Reads (Cursor.require c e) [] () := by
    intro rest
    rw [Cursor.require, if_pos h]
    rfl
  exact hnone.bind h'

/-- Where a cursor reads both of two encodings, the strings they begin agree on nothing less. -/
theorem Reads.inj {c : Cursor ε α} {bytes bytes' rest rest' : List UInt8} {a a' : α}
    (h : Reads c bytes a) (h' : Reads c bytes' a') (heq : bytes ++ rest = bytes' ++ rest') :
    a = a' ∧ rest = rest' := by
  have hok := h rest
  rw [heq, h' rest'] at hok
  injection hok with hpair
  injection hpair with ha hrest
  exact ⟨ha.symm, hrest.symm⟩

theorem Reads.take (e : ε) (bytes : List UInt8) : Reads (Cursor.take e bytes.length) bytes bytes := by
  intro rest
  rw [Cursor.take, if_neg (by rw [List.length_append]; omega), List.take_left, List.drop_left]

theorem Reads.byte (e : ε) (b : UInt8) : Reads (Cursor.byte e) [b] b :=
  fun _ => rfl

theorem Reads.int (e : ε) {width value : ℕ} (h : value < 256 ^ width) :
    Reads (Cursor.int e width) (encodeLe width value) value := by
  have htake := Reads.take e (encodeLe width value)
  rw [Bytes.length_encodeLe] at htake
  refine htake.last ?_
  rw [Bytes.decodeLe_encodeLe_of_lt h]
  exact Reads.pure value

theorem Reads.mapError {ε' : Type} (f : ε → ε') {c : Cursor ε α} {bytes : List UInt8} {a : α}
    (h : Reads c bytes a) : Reads (c.mapError f) bytes a := by
  intro rest
  rw [Cursor.mapError, h]
  rfl

theorem Reads.many {c : Cursor ε α} {encode : α → List UInt8} {l : List α}
    (h : ∀ a ∈ l, Reads c (encode a) a) : Reads (Cursor.many c l.length) (l.flatMap encode) l := by
  induction l with
  | nil => exact Reads.pure []
  | cons a l ih =>
    rw [List.flatMap_cons]
    refine (h a List.mem_cons_self).bind ?_
    exact (ih fun b hb => h b (List.mem_cons_of_mem a hb)).last (Reads.pure (a :: l))

/-! ### Where a cursor stops -/

/-- The cursor finds no value at the front of the string. -/
def Fails (c : Cursor ε α) (bytes : List UInt8) : Prop :=
  ∃ e, c bytes = .error e

theorem Reads.fails {c : Cursor ε α} {f : α → Cursor ε β} {bytes bytes' : List UInt8} {a : α}
    (h : Reads c bytes a) (h' : Fails (f a) bytes') : Fails (c >>= f) (bytes ++ bytes') := by
  obtain ⟨e, he⟩ := h'
  use e
  show (c (bytes ++ bytes') >>= fun p => f p.1 p.2) = _
  rw [h]
  exact he

theorem Reads.require_fails {c : Bool} {f : Unit → Cursor ε β} {bytes : List UInt8} (e : ε)
    (h : c = true) (h' : Fails (f ()) bytes) : Fails (Cursor.require c e >>= f) bytes := by
  have hnone : Reads (Cursor.require c e) [] () := by
    intro rest
    rw [Cursor.require, if_pos h]
    rfl
  exact hnone.fails h'

theorem fails_take (e : ε) {count : ℕ} {bytes : List UInt8} (h : bytes.length < count)
    (f : List UInt8 → Cursor ε β) : Fails (Cursor.take e count >>= f) bytes := by
  use e
  show (Cursor.take e count bytes >>= fun p => f p.1 p.2) = _
  rw [Cursor.take, if_pos h]
  rfl

/-! ### What a cursor makes -/

/-- Whatever the cursor makes has the property. -/
def Yields (c : Cursor ε α) (P : α → Prop) : Prop :=
  ∀ bytes a rest, c bytes = .ok (a, rest) → P a

theorem Yields.pure {a : α} {P : α → Prop} (h : P a) : Yields (Pure.pure a : Cursor ε α) P := by
  intro bytes b rest hok
  cases hok
  exact h

theorem Yields.bind {c : Cursor ε α} {f : α → Cursor ε β} {P : β → Prop} (h : ∀ a, Yields (f a) P) :
    Yields (c >>= f) P := by
  intro bytes b rest hok
  replace hok : (c bytes >>= fun p => f p.1 p.2) = .ok (b, rest) := hok
  cases hc : c bytes with
  | error e =>
    rw [hc] at hok
    cases hok
  | ok p =>
    rw [hc] at hok
    exact h p.1 p.2 b rest hok

/-! ### What a cursor accepts -/

/-- What the cursor takes from the front of a byte string is in relation `Q` to what it makes of it. -/
def Accepts (c : Cursor ε α) (Q : α → List UInt8 → Prop) : Prop :=
  ∀ bytes a rest, c bytes = .ok (a, rest) → ∃ used, bytes = used ++ rest ∧ Q a used

/-- The cursor accepts encodings of good values only. -/
def Writes (c : Cursor ε α) (encode : α → List UInt8) (Good : α → Prop) : Prop :=
  Accepts c fun a used => Good a ∧ used = encode a

theorem Accepts.pure {a : α} {Q : α → List UInt8 → Prop} (h : Q a []) :
    Accepts (Pure.pure a : Cursor ε α) Q := by
  intro bytes b rest hok
  cases hok
  exact ⟨[], rfl, h⟩

theorem accepts_fail (e : ε) (Q : α → List UInt8 → Prop) : Accepts (fail e) Q := by
  intro bytes a rest hok
  cases hok

theorem Accepts.bind {c : Cursor ε α} {f : α → Cursor ε β} {P : α → List UInt8 → Prop}
    {Q : β → List UInt8 → Prop} (h : Accepts c P)
    (h' : ∀ a used, P a used → Accepts (f a) fun b used' => Q b (used ++ used')) :
    Accepts (c >>= f) Q := by
  intro bytes b rest hok
  replace hok : (c bytes >>= fun p => f p.1 p.2) = .ok (b, rest) := hok
  cases hc : c bytes with
  | error e =>
    rw [hc] at hok
    cases hok
  | ok p =>
    obtain ⟨a, mid⟩ := p
    rw [hc] at hok
    obtain ⟨used, rfl, hP⟩ := h bytes a mid hc
    obtain ⟨used', rfl, hQ⟩ := h' a used hP mid b rest hok
    exact ⟨used ++ used', by rw [List.append_assoc], hQ⟩

theorem Writes.bind {c : Cursor ε α} {f : α → Cursor ε β} {encode : α → List UInt8} {Good : α → Prop}
    {Q : β → List UInt8 → Prop} (h : Writes c encode Good)
    (h' : ∀ a, Good a → Accepts (f a) fun b used => Q b (encode a ++ used)) : Accepts (c >>= f) Q := by
  refine Accepts.bind h fun a used hP => ?_
  rw [hP.2]
  exact h' a hP.1

theorem accepts_require {c : Bool} {f : Unit → Cursor ε β} {Q : β → List UInt8 → Prop} (e : ε)
    (h : c = true → Accepts (f ()) Q) : Accepts (Cursor.require c e >>= f) Q := by
  have hnone : Accepts (Cursor.require c e) fun _ used => c = true ∧ used = [] := by
    intro bytes a rest hok
    rw [Cursor.require] at hok
    split at hok
    · rename_i hc
      cases hok
      exact ⟨[], rfl, hc, rfl⟩
    · cases hok
  refine hnone.bind fun a used hP => ?_
  rw [hP.2]
  exact h hP.1

theorem writes_take (e : ε) (count : ℕ) :
    Writes (Cursor.take e count) id fun bytes => bytes.length = count := by
  intro bytes a rest hok
  rw [Cursor.take] at hok
  split at hok
  · cases hok
  · rename_i hlen
    cases hok
    refine ⟨bytes.take count, (List.take_append_drop count bytes).symm, ?_, rfl⟩
    show (bytes.take count).length = count
    rw [List.length_take]
    omega

theorem writes_byte (e : ε) : Writes (Cursor.byte e) (fun b => [b]) fun _ => True := by
  intro bytes a rest hok
  cases bytes with
  | nil => cases hok
  | cons b bytes =>
    cases hok
    exact ⟨[a], rfl, trivial, rfl⟩

theorem writes_int (e : ε) (width : ℕ) :
    Writes (Cursor.int e width) (encodeLe width) fun value => value < 256 ^ width := by
  refine (writes_take e width).bind fun bytes hlen => Accepts.pure ?_
  rw [List.append_nil, ← hlen]
  exact ⟨Bytes.decodeLe_lt bytes, (Bytes.encodeLe_decodeLe bytes).symm⟩

theorem Writes.mapError {ε' : Type} (f : ε → ε') {c : Cursor ε α} {encode : α → List UInt8}
    {Good : α → Prop} (h : Writes c encode Good) : Writes (c.mapError f) encode Good := by
  intro bytes a rest hok
  rw [Cursor.mapError] at hok
  cases hc : c bytes with
  | error e =>
    rw [hc] at hok
    cases hok
  | ok p =>
    rw [hc] at hok
    cases hok
    exact h bytes a rest hc

theorem Writes.many {c : Cursor ε α} {encode : α → List UInt8} {Good : α → Prop}
    (h : Writes c encode Good) (count : ℕ) :
    Writes (Cursor.many c count) (fun l => l.flatMap encode)
      fun l => l.length = count ∧ ∀ a ∈ l, Good a := by
  induction count with
  | zero => exact Accepts.pure ⟨⟨rfl, fun a ha => absurd ha List.not_mem_nil⟩, rfl⟩
  | succ count ih =>
    refine h.bind fun a ha => ih.bind fun l hl => Accepts.pure ⟨⟨?_, ?_⟩, ?_⟩
    · rw [List.length_cons, hl.1]
    · intro b hb
      rcases List.mem_cons.1 hb with rfl | hb
      · exact ha
      · exact hl.2 b hb
    · show encode a ++ (l.flatMap encode ++ []) = (a :: l).flatMap encode
      rw [List.flatMap_cons, List.append_nil]

/-- A cursor that must leave nothing accepts exactly encodings. -/
theorem Writes.whole {c : Cursor ε α} {encode : α → List UInt8} {Good : α → Prop}
    (h : Writes c encode Good) {bytes : List UInt8} {a : α} (hok : c bytes = .ok (a, [])) :
    Good a ∧ bytes = encode a := by
  obtain ⟨used, hbytes, hgood, hused⟩ := h bytes a [] hok
  rw [List.append_nil] at hbytes
  exact ⟨hgood, hbytes.trans hused⟩

/-! ### What a cursor looks at -/

/-- The cursor reads `size` bytes, and what it has read it reads whatever follows. -/
def Local (c : Cursor ε α) (size : ℕ) : Prop :=
  Accepts c fun a used => used.length = size ∧ Reads c used a

theorem Local.bind {c : Cursor ε α} {f : α → Cursor ε β} {size size' : ℕ} (h : Local c size)
    (h' : ∀ a, Local (f a) size') : Local (c >>= f) (size + size') := by
  apply Accepts.bind h
  intro a used hused bytes b rest hok
  obtain ⟨used', hbytes, hlen, hreads⟩ := h' a bytes b rest hok
  refine ⟨used', hbytes, ?_, hused.2.bind hreads⟩
  rw [List.length_append, hused.1, hlen]

theorem local_pure (a : α) : Local (Pure.pure a : Cursor ε α) 0 :=
  Accepts.pure ⟨rfl, Reads.pure a⟩

theorem local_fail (e : ε) (size : ℕ) : Local (fail e : Cursor ε α) size :=
  accepts_fail e _

theorem local_take (e : ε) (count : ℕ) : Local (Cursor.take e count) count := by
  intro bytes a rest hok
  obtain ⟨used, hbytes, hlen, hused⟩ := writes_take e count bytes a rest hok
  have hreads := Reads.take e a
  rw [hlen] at hreads
  rw [hused] at hbytes
  exact ⟨a, hbytes, hlen, hreads⟩

theorem local_byte (e : ε) : Local (Cursor.byte e) 1 := by
  intro bytes a rest hok
  obtain ⟨used, hbytes, -, rfl⟩ := writes_byte e bytes a rest hok
  exact ⟨[a], hbytes, rfl, Reads.byte e a⟩

theorem local_int (e : ε) (width : ℕ) : Local (Cursor.int e width) width :=
  (local_take e width).bind fun _ => local_pure _

theorem local_require (c : Bool) (e : ε) : Local (Cursor.require c e) 0 := by
  intro bytes a rest hok
  rw [Cursor.require] at hok
  split at hok
  · rename_i hc
    cases hok
    refine ⟨[], rfl, rfl, ?_⟩
    intro after
    rw [Cursor.require, if_pos hc]
    rfl
  · cases hok

/-- A local cursor reads the same from a front of the bytes that holds what it reads. -/
theorem Local.front {c : Cursor ε α} {size : ℕ} (h : Local c size) {bytes rest front : List UInt8} {a : α}
    (hok : c bytes = .ok (a, rest)) (hfront : front <+: bytes) (hsize : size ≤ front.length) :
    c front = .ok (a, front.drop size) := by
  obtain ⟨used, rfl, hlen, hreads⟩ := h bytes a rest hok
  have hused : used <+: front :=
    List.prefix_of_prefix_length_le (List.prefix_append used rest) hfront (hlen.trans_le hsize)
  obtain ⟨more, rfl⟩ := hused
  rw [hreads more, ← hlen, List.drop_left]

/-! ### What a cursor raises -/

/-- Every error of the cursor has the property. -/
def Raises (c : Cursor ε α) (P : ε → Prop) : Prop :=
  ∀ bytes e, c bytes = .error e → P e

section Raises

variable {P : ε → Prop} {e : ε}

theorem Raises.bind {c : Cursor ε α} {f : α → Cursor ε β} (h : Raises c P) (h' : ∀ a, Raises (f a) P) :
    Raises (c >>= f) P := by
  intro bytes e hfail
  replace hfail : (c bytes >>= fun p => f p.1 p.2) = .error e := hfail
  cases hc : c bytes with
  | error e' =>
    rw [hc] at hfail
    cases hfail
    exact h bytes e hc
  | ok p =>
    rw [hc] at hfail
    exact h' p.1 p.2 e hfail

theorem raises_pure (a : α) : Raises (Pure.pure a : Cursor ε α) P := by
  intro bytes e hfail
  cases hfail

theorem raises_take (h : P e) (count : ℕ) : Raises (Cursor.take e count) P := by
  intro bytes e' hfail
  rw [Cursor.take] at hfail
  split at hfail
  · cases hfail
    exact h
  · cases hfail

theorem raises_byte (h : P e) : Raises (Cursor.byte e) P := by
  intro bytes e' hfail
  cases bytes with
  | nil =>
    cases hfail
    exact h
  | cons b bytes => cases hfail

theorem raises_int (h : P e) (width : ℕ) : Raises (Cursor.int e width) P :=
  (raises_take h width).bind fun _ => raises_pure _

theorem raises_require (h : P e) (c : Bool) : Raises (Cursor.require c e) P := by
  intro bytes e' hfail
  rw [Cursor.require] at hfail
  split at hfail
  · cases hfail
  · cases hfail
    exact h

end Raises

/-! ### Errors under another name -/

theorem mapError_pure {ε' : Type} (f : ε → ε') (a : α) :
    (Pure.pure a : Cursor ε α).mapError f = Pure.pure a :=
  rfl

theorem mapError_bind {ε' : Type} (f : ε → ε') (c : Cursor ε α) (g : α → Cursor ε β) :
    (c >>= g).mapError f = c.mapError f >>= fun a => (g a).mapError f := by
  funext bytes
  show Except.mapError f (c bytes >>= fun p => g p.1 p.2) =
    ((c bytes).mapError f >>= fun p => (g p.1 p.2).mapError f)
  cases c bytes <;> rfl

theorem mapError_take {ε' : Type} (f : ε → ε') (e : ε) (count : ℕ) :
    (Cursor.take e count).mapError f = Cursor.take (f e) count := by
  funext bytes
  rw [Cursor.mapError, Cursor.take, Cursor.take]
  split <;> rfl

theorem mapError_byte {ε' : Type} (f : ε → ε') (e : ε) :
    (Cursor.byte e).mapError f = Cursor.byte (f e) := by
  funext bytes
  cases bytes <;> rfl

theorem mapError_int {ε' : Type} (f : ε → ε') (e : ε) (width : ℕ) :
    (Cursor.int e width).mapError f = Cursor.int (f e) width := by
  rw [Cursor.int, mapError_bind, mapError_take]
  rfl

theorem mapError_require {ε' : Type} (f : ε → ε') (c : Bool) (e : ε) :
    (Cursor.require c e).mapError f = Cursor.require c (f e) := by
  funext bytes
  rw [Cursor.mapError, Cursor.require, Cursor.require]
  split <;> rfl

theorem require_bind {c : Bool} (h : c = true) (e : ε) (f : Unit → Cursor ε β) :
    (Cursor.require c e >>= f) = f () := by
  funext bytes
  show (Cursor.require c e bytes >>= fun p => f p.1 p.2) = f () bytes
  rw [Cursor.require, if_pos h]
  rfl

theorem require_bind_congr {c : Bool} {e : ε} {f g : Unit → Cursor ε β} (h : c = true → f () = g ()) :
    (Cursor.require c e >>= f) = (Cursor.require c e >>= g) := by
  cases hc : c with
  | false => rfl
  | true => rw [require_bind rfl, require_bind rfl, h hc]

end Cursor
