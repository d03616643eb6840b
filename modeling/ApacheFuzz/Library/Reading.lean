import ApacheFuzz.Library.BigEndian

/-!
# Readers of nested length fields

A reader takes its value off the front of some bytes.  A vector is content behind its length in
big-endian bytes; `sized` reads one by its length field alone and demands that the reader of the
content leaves nothing over, and `many` reads values until nothing is left.
-/

abbrev Reader := StateT (List UInt8) Option

namespace Reader

variable {α β : Type}

def byte : Reader UInt8
  | [] => none
  | b :: rest => some (b, rest)

def bytes (count : Nat) : Reader (List UInt8) := fun input =>
  if count ≤ input.length then some (input.take count, input.drop count) else none

/-- The value of a reader that takes all of `content`. -/
def exactly (reader : Reader α) (content : List UInt8) : Option α :=
  match reader content with
  | some (a, []) => some a
  | _ => none

/-- A value behind its length in `width` bytes. -/
def sized (width : Nat) (reader : Reader α) : Reader α := do
  let length ← bytes width
  let content ← bytes (BigEndian.value length)
  StateT.lift (exactly reader content)

def manyFuel (reader : Reader α) : Nat → Reader (List α)
  | _, [] => some ([], [])
  | 0, _ :: _ => none
  | fuel + 1, b :: input => do
    let (a, rest) ← reader (b :: input)
    let (others, rest) ← manyFuel reader fuel rest
    return (a :: others, rest)

/-- Values until the input is empty, each of at least one byte. -/
def many (reader : Reader α) : Reader (List α) := fun input =>
  manyFuel reader input.length input

/-- All of the content of a vector. -/
def rest : Reader (List UInt8) := fun input => some (input, [])

/-- The encoding that `sized` reads, for a content whose length fits. -/
def vector (width : Nat) (content : List UInt8) : List UInt8 :=
  BigEndian.digits width content.length ++ content

/-- The reader takes `encoding` for `a` and leaves what follows alone. -/
def Reads (reader : Reader α) (encoding : List UInt8) (a : α) : Prop :=
  ∀ rest, reader (encoding ++ rest) = some (a, rest)

@[simp] theorem length_vector (width : Nat) (content : List UInt8) :
    (vector width content).length = width + content.length := by
  rw [vector, List.length_append, BigEndian.length_digits]

theorem Reads.exactly {reader : Reader α} {encoding : List UInt8} {a : α}
    (h : Reads reader encoding a) : exactly reader encoding = some a := by
  have hall := h []
  rw [List.append_nil] at hall
  rw [Reader.exactly, hall]

theorem Reads.pure (a : α) : Reads (Pure.pure a) [] a := fun _ => rfl

theorem Reads.bind {reader : Reader α} {next : α → Reader β} {first second : List UInt8} {a : α}
    {b : β} (hfirst : Reads reader first a) (hsecond : Reads (next a) second b) :
    Reads (reader >>= next) (first ++ second) b := by
  intro rest
  show (reader (first ++ second ++ rest)).bind (fun read => next read.1 read.2) = _
  rw [List.append_assoc, hfirst, Option.bind_some]
  exact hsecond rest

theorem Reads.map {reader : Reader α} {encoding : List UInt8} {a : α} (f : α → β)
    (h : Reads reader encoding a) : Reads (f <$> reader) encoding (f a) := by
  intro rest
  show (reader (encoding ++ rest)).bind (fun read => some (f read.1, read.2)) = _
  rw [h]
  rfl

theorem reads_byte (b : UInt8) : Reads byte [b] b := fun _ => rfl

theorem reads_bytes {count : Nat} {encoding : List UInt8} (hcount : encoding.length = count) :
    Reads (bytes count) encoding encoding := by
  intro rest
  have hle : count ≤ (encoding ++ rest).length := by
    rw [List.length_append]
    omega
  rw [bytes, if_pos hle, ← hcount, List.take_left, List.drop_left]

/-- The length field alone tells where the content ends. -/
theorem Reads.sized {reader : Reader α} {content : List UInt8} {a : α} {width : Nat}
    (hcontent : Reader.exactly reader content = some a) (hfits : content.length < 256 ^ width) :
    Reads (sized width reader) (vector width content) a := by
  have hlength : Reads (bytes width) (BigEndian.digits width content.length) _ :=
    reads_bytes (BigEndian.length_digits width content.length)
  apply hlength.bind
  rw [BigEndian.value_digits hfits, ← List.append_nil content]
  apply (reads_bytes (by rw [List.append_nil])).bind
  intro rest
  rw [hcontent]
  rfl

theorem exactly_rest (content : List UInt8) : exactly rest content = some content := rfl

theorem exactly_map_rest (f : List UInt8 → α) (content : List UInt8) :
    exactly (f <$> rest) content = some (f content) := rfl

theorem manyFuel_flatMap {reader : Reader α} {encode : α → List UInt8} {as : List α}
    (hreads : ∀ a ∈ as, Reads reader (encode a) a) (hpos : ∀ a ∈ as, encode a ≠ []) {fuel : Nat}
    (hfuel : (as.flatMap encode).length ≤ fuel) :
    manyFuel reader fuel (as.flatMap encode) = some (as, []) := by
  induction as generalizing fuel with
  | nil => cases fuel <;> rfl
  | cons a as ih =>
    rw [List.forall_mem_cons] at hreads hpos
    rw [List.flatMap_cons] at hfuel ⊢
    cases hencode : encode a with
    | nil => exact absurd hencode hpos.1
    | cons b tail =>
      rw [hencode, List.length_append, List.length_cons] at hfuel
      cases fuel with
      | zero => omega
      | succ fuel =>
        have hfirst : reader (b :: (tail ++ as.flatMap encode)) = some (a, as.flatMap encode) := by
          rw [← List.cons_append, ← hencode]
          exact hreads.1 _
        have hothers := ih hreads.2 hpos.2 (by omega : (as.flatMap encode).length ≤ fuel)
        rw [List.cons_append, manyFuel, hfirst]
        show (manyFuel reader fuel (as.flatMap encode)).bind _ = _
        rw [hothers]
        rfl

/-- A concatenation is read back item after item. -/
theorem exactly_many {reader : Reader α} {encode : α → List UInt8} {as : List α}
    (hreads : ∀ a ∈ as, Reads reader (encode a) a) (hpos : ∀ a ∈ as, encode a ≠ []) :
    exactly (many reader) (as.flatMap encode) = some as := by
  rw [exactly, many, manyFuel_flatMap hreads hpos le_rfl]

end Reader
