/-
Schema-driven message codecs.

What `protoc` generates from a message declaration, as one interpreter: a
schema lists the fields of a message type, each with its field numbers, the way
it is written and the way it takes in a record, and `Schema.step`,
`Schema.parse` and `Schema.serialize` are the generated `_InternalParse` and
`_InternalSerialize` for it.

* A `ValueCodec` is one value on the wire: a scalar, a string or a submessage.
* A `FieldCodec` is what a declaration makes of values: singular (left out when it
  is the default), optional, repeated, packed, map or oneof.
* `Writes`/`Serializes` relate a message to every encoding the serializer may
  produce, since the entries of a map are written in the hash table's order;
  `write`/`serialize` is the encoding with each map in key order, the one made
  when deterministic serialization is asked for.
* `Ok`/`WellFormed` is the grammar of a declaration, stated on the bytes
  without running the parser.
* Reading returns `none` for a record of an unexpected wire type, which is
  skipped like an unknown field, and otherwise the new value together with a
  flag that is `false` on malformed input.
* After a failed parse the numbers of the message itself are those that libprotobuf
  leaves, read past the end where it does so.  What is left of a string, a submessage,
  a packed list or a map in which the failure lies is not followed: the model keeps
  some value there, and libprotobuf may keep another.
-/
import Click.Proto.Wire

namespace Proto

/-- Shortest-form UTF-8 without surrogates, up to U+10FFFF. -/
def validUtf8 : Bytes → Bool
  | [] => true
  | a :: bs =>
    if a ≤ 0x7F then validUtf8 bs
    else match bs with
      | [] => false
      | b :: bs =>
        if 0xC2 ≤ a && a ≤ 0xDF then tail b && validUtf8 bs
        else match bs with
          | [] => false
          | c :: bs =>
            if 0xE0 ≤ a && a ≤ 0xEF then
              (a != 0xE0 || 0xA0 ≤ b) && (a != 0xED || b ≤ 0x9F) && tail b && tail c
                && validUtf8 bs
            else match bs with
              | [] => false
              | d :: bs =>
                0xF0 ≤ a && a ≤ 0xF4 && (a != 0xF0 || 0x90 ≤ b) && (a != 0xF4 || b ≤ 0x8F)
                  && tail b && tail c && tail d && validUtf8 bs
where
  tail (b : UInt8) : Bool := 0x80 ≤ b && b ≤ 0xBF

/-- An enumeration value.  Enumerations are open: any 32-bit number is one. -/
abbrev Enum := BitVec 32

/-- A double, as its bit pattern. -/
abbrev Double := BitVec 64

/-- `google::protobuf::Map<std::string, α>`. -/
abbrev Map (α : Type) := Std.ExtTreeMap Bytes α compare

/-! ### Values -/

/-- A scalar type: the payload that carries a value. -/
structure Scalar (α : Type) where
  wireType : ℕ
  init : α
  write : α → Payload
  read : Payload → Option α

/-- An `int32` or an enumeration: written sign-extended to 64 bits and read
modulo `2 ^ 32`. -/
def Scalar.int32 : Scalar Enum where
  wireType := 0
  init := 0
  write e := .varint (e.signExtend 64)
  read
    | .varint v => some (v.setWidth 32)
    | _ => none

def Scalar.bool : Scalar Bool where
  wireType := 0
  init := false
  write b := .varint (if b then 1 else 0)
  read
    | .varint v => some (v != 0)
    | _ => none

def Scalar.double : Scalar Double where
  wireType := 1
  init := 0
  write x := .i64 x
  read
    | .i64 v => some v
    | _ => none

/-- One value on the wire.  `read d x p` reads `p` over the present value `x`
(submessages merge) with `d` levels of nesting left. -/
structure ValueCodec (α : Type) where
  init : α
  write : α → Payload
  Writes : α → Payload → Prop
  Utf8 : α → Prop
  Ok : ℕ → Payload → Prop
  read : ℕ → α → Payload → Option (Bool × α)

def Scalar.toValue {α : Type} (s : Scalar α) : ValueCodec α where
  init := s.init
  write := s.write
  Writes x p := p = s.write x
  Utf8 _ := True
  Ok _ _ := True
  read _ _ p := (s.read p).map fun x => (true, x)

/-- A string is stored before it is checked. -/
def ValueCodec.string : ValueCodec Bytes where
  init := []
  write := .len
  Writes x p := p = .len x
  Utf8 x := validUtf8 x = true
  Ok _ p := ∀ b, p = .len b → validUtf8 b = true
  read _ _ p :=
    match p with
    | .len b => some (validUtf8 b, b)
    | _ => none

/-! ### Fields -/

/-- A field declaration of a message. -/
structure FieldCodec (α : Type) where
  nums : List ℕ
  init : α
  write : α → List Record
  Writes : α → List Record → Prop
  Utf8 : α → Prop
  Ok : ℕ → Record → Prop
  read : ℕ → α → Record → Option (Bool × α)

section Fields

variable {α : Type}

/-- A value that is always written, as the key and the value of a map entry
are. -/
def FieldCodec.always (n : ℕ) (v : ValueCodec α) : FieldCodec α where
  nums := [n]
  init := v.init
  write x := [⟨n, v.write x⟩]
  Writes x rs := ∃ p, v.Writes x p ∧ rs = [⟨n, p⟩]
  Utf8 := v.Utf8
  Ok d r := r.num = n → v.Ok d r.payload
  read d x r := if r.num = n then v.read d x r.payload else none

/-- A proto3 field without presence: left out when it holds the default; the
last occurrence wins. -/
def FieldCodec.singular [DecidableEq α] (n : ℕ) (v : ValueCodec α) : FieldCodec α where
  nums := [n]
  init := v.init
  write x := if x = v.init then [] else [⟨n, v.write x⟩]
  Writes x rs := if x = v.init then rs = [] else ∃ p, v.Writes x p ∧ rs = [⟨n, p⟩]
  Utf8 := v.Utf8
  Ok d r := r.num = n → v.Ok d r.payload
  read d x r := if r.num = n then v.read d x r.payload else none

/-- A submessage, with presence; further occurrences are merged in. -/
def FieldCodec.optional (n : ℕ) (v : ValueCodec α) : FieldCodec (Option α) where
  nums := [n]
  init := none
  write x := x.toList.map fun y => ⟨n, v.write y⟩
  Writes x rs := List.Forall₂ (fun y r => ∃ p, v.Writes y p ∧ r = ⟨n, p⟩) x.toList rs
  Utf8 x := ∀ y ∈ x, v.Utf8 y
  Ok d r := r.num = n → v.Ok d r.payload
  read d x r :=
    if r.num = n then
      (v.read d (x.getD v.init) r.payload).map fun q => (q.1, some q.2)
    else none

/-- Each occurrence appends an element. -/
def FieldCodec.repeated (n : ℕ) (v : ValueCodec α) : FieldCodec (List α) where
  nums := [n]
  init := []
  write xs := xs.map fun y => ⟨n, v.write y⟩
  Writes xs rs := List.Forall₂ (fun y r => ∃ p, v.Writes y p ∧ r = ⟨n, p⟩) xs rs
  Utf8 xs := ∀ y ∈ xs, v.Utf8 y
  Ok d r := r.num = n → v.Ok d r.payload
  read d xs r :=
    if r.num = n then (v.read d v.init r.payload).map fun q => (q.1, xs ++ [q.2]) else none

/-- The elements of a packed list, without tags. -/
def Scalar.pack (s : Scalar α) : List α → Bytes
  | [] => []
  | x :: xs => (s.write x).encode ++ s.pack xs

/-- One element of a packed list. -/
def Scalar.unpackOne (s : Scalar α) (bs : Bytes) : Option (α × Bytes) :=
  (readScalar (8 + s.wireType) bs).bind fun p => (s.read p.1).map fun x => (x, p.2)

/-- Append the elements of a packed list, up to the first malformed one. -/
def Scalar.unpack (s : Scalar α) : ℕ → Bytes → List α → Bool × List α
  | _, [], xs => (true, xs)
  | 0, _ :: _, xs => (false, xs)
  | k + 1, b :: bs, xs =>
    match s.unpackOne (b :: bs) with
    | none => (false, xs)
    | some (x, rest) => s.unpack k rest (xs ++ [x])

/-- The bytes are a sequence of elements. -/
inductive Scalar.Packs (s : Scalar α) : Bytes → Prop
  | nil : s.Packs []
  | cons {bs rest : Bytes} {x : α} :
      s.unpackOne bs = some (x, rest) → s.Packs rest → s.Packs bs

/-- A repeated scalar: written packed, read packed or one by one. -/
def FieldCodec.packed (n : ℕ) (s : Scalar α) : FieldCodec (List α) where
  nums := [n]
  init := []
  write xs := if xs.isEmpty then [] else [⟨n, .len (s.pack xs)⟩]
  Writes xs rs := rs = if xs.isEmpty then [] else [⟨n, .len (s.pack xs)⟩]
  Utf8 _ := True
  Ok _ r := r.num = n → ∀ b, r.payload = .len b → s.Packs b
  read _ xs r :=
    if r.num = n then
      match r.payload with
      | .len b => some (s.unpack b.length b xs)
      -- a parser takes single elements as well
      | p => (s.read p).map fun x => (true, xs ++ [x])
    else none

end Fields

/-- A case of a oneof. -/
structure Alt (V : Type) where
  {α : Type}
  num : ℕ
  value : ValueCodec α
  inj : α → V
  proj : V → Option α

section Oneof

variable {V : Type}

def Alt.write (a : Alt V) (v : V) : List Record :=
  (a.proj v).toList.map fun x => ⟨a.num, a.value.write x⟩

def Alt.Writes (a : Alt V) (v : V) (rs : List Record) : Prop :=
  List.Forall₂ (fun x r => ∃ p, a.value.Writes x p ∧ r = ⟨a.num, p⟩) (a.proj v).toList rs

/-- Setting a case clears the others; a submessage of the case that is set is
merged into. -/
def Alt.read (a : Alt V) (d : ℕ) (o : Option V) (r : Record) : Option (Bool × Option V) :=
  if r.num = a.num then
    (a.value.read d ((o.bind a.proj).getD a.value.init) r.payload).map
      fun q => (q.1, some (a.inj q.2))
  else none

/-- Every case is asked in turn whether it is set (`_internal_has_…`). -/
def FieldCodec.oneof (alts : List (Alt V)) : FieldCodec (Option V) where
  nums := alts.map Alt.num
  init := none
  write
    | none => []
    | some v => alts.flatMap fun a => a.write v
  Writes
    | none, rs => rs = []
    | some v, rs => ∃ parts : List (List Record),
        List.Forall₂ (fun a ps => a.Writes v ps) alts parts ∧ rs = parts.flatten
  Utf8 o := ∀ v ∈ o, ∀ a ∈ alts, ∀ x ∈ a.proj v, a.value.Utf8 x
  Ok d r := ∀ a ∈ alts, r.num = a.num → a.value.Ok d r.payload
  read d o r := alts.findSome? fun a => a.read d o r

end Oneof

/-! ### Messages -/

/-- A field of the message type `M` and where `M` keeps it. -/
structure Member (M : Type) where
  {α : Type}
  field : FieldCodec α
  get : M → α
  set : M → α → M
  get_set : ∀ m x, get (set m x) = x := by intros; rfl
  set_set : ∀ m x y, set (set m x) y = set m y := by intros; rfl
  set_get : ∀ m, set m (get m) = m := by intros; rfl

/-- A message declaration: the empty message and the fields in the order they
are written, which is that of their numbers. -/
structure Schema (M : Type) where
  empty : M
  members : List (Member M)

section Messages

variable {M : Type}

def Member.read (f : Member M) (d : ℕ) (m : M) (r : Record) : Option (Bool × M) :=
  (f.field.read d (f.get m) r).map fun q => (q.1, f.set m q.2)

/-- The `switch` of `_InternalParse`: a record no field takes is skipped. -/
def Schema.step (S : Schema M) (d : ℕ) (m : M) (r : Record) : Bool × M :=
  (S.members.findSome? fun f => f.read d m r).getD (true, m)

/-- `_InternalParse` onto `m`, with `d` levels of nesting left and `past` behind the
end. -/
def Schema.parse (S : Schema M) (past : Bytes) (d : ℕ) (bs : Bytes) (m : M) : Bool × M :=
  parseRecords (S.step d) past d bs m

def Schema.write (S : Schema M) (m : M) : List Record :=
  S.members.flatMap fun f => f.field.write (f.get m)

/-- `_InternalSerialize` with every map in key order. -/
def Schema.serialize (S : Schema M) (m : M) : Bytes := encodeRecords (S.write m)

/-- The records of the fields one after the other, each field written in one of
its ways. -/
def Schema.Writes (S : Schema M) (m : M) (rs : List Record) : Prop :=
  ∃ parts : List (List Record),
    List.Forall₂ (fun f ps => f.field.Writes (f.get m) ps) S.members parts ∧ rs = parts.flatten

/-- `b` is an encoding of `m` that `_InternalSerialize` may produce. -/
def Schema.Serializes (S : Schema M) (m : M) (b : Bytes) : Prop :=
  ∃ rs, S.Writes m rs ∧ b = encodeRecords rs

/-- All strings and map keys in `m` are valid UTF-8. -/
def Schema.Utf8 (S : Schema M) (m : M) : Prop := ∀ f ∈ S.members, f.field.Utf8 (f.get m)

/-- A record is well formed for every field that takes it. -/
def Schema.Ok (S : Schema M) (d : ℕ) (r : Record) : Prop := ∀ f ∈ S.members, f.field.Ok d r

/-- The bytes are a sequence of records, each well formed for the fields. -/
def Schema.WellFormed (S : Schema M) (d : ℕ) (bs : Bytes) : Prop :=
  (records [] d bs).2 = true ∧ ∀ r ∈ (records [] d bs).1, S.Ok d r

/-- A submessage, one level further down.  If it fails so does the whole parse. -/
def ValueCodec.message (S : Schema M) : ValueCodec M where
  init := S.empty
  write m := .len (S.serialize m)
  Writes m p := ∃ b, S.Serializes m b ∧ p = .len b
  Utf8 := S.Utf8
  Ok d p := ∀ b, p = .len b → ∃ d', d = d' + 1 ∧ S.WellFormed d' b
  read d m p :=
    match d, p with
    | 0, .len _ => some (false, m)
    | d + 1, .len b => some (S.parse [] d b m)
    | _, _ => none

/-- The default recursion limit of the parser. -/
def recursionLimit : ℕ := 100

/-- The `kSlopBytes` behind a string that is parsed. -/
def slop : Bytes := List.replicate 16 0

/-- `ParseFromString`: whether the parse succeeded, and the object after it. -/
def Schema.parseFromString (S : Schema M) (bs : Bytes) : Bool × M :=
  S.parse slop recursionLimit bs S.empty

/-- `ParseFromIstream`.  Behind the end of a stream lies what the buffer held before. -/
def Schema.parseFromIstream (S : Schema M) (past bs : Bytes) : Bool × M :=
  S.parse past recursionLimit bs S.empty

/-- `ByteSizeLong`. -/
def Schema.byteSize (S : Schema M) (m : M) : ℕ := (S.serialize m).length

/-- `SerializeAsString`: nothing is written when the limit of 2 GiB is
exceeded. -/
def Schema.SerializesAsString (S : Schema M) (m : M) (out : Bytes) : Prop :=
  if S.byteSize m ≤ maxSize then S.Serializes m out else out = []

end Messages

/-! ### Maps -/

section Maps

variable {α : Type}

/-- The message an entry of a `map<string, α>` field is written as. -/
def entrySchema (v : ValueCodec α) : Schema (Bytes × α) where
  empty := ([], v.init)
  members := [
    { field := .always 1 .string, get := Prod.fst, set := fun e k => (k, e.2) },
    { field := .always 2 v, get := Prod.snd, set := fun e x => (e.1, x) }]

/-- Entries are parsed on their own and then put into the map, so a later entry
replaces an earlier one of the same key.  A malformed entry ends the parse; what becomes
of the map then is not modelled (libprotobuf works on the map itself, and may leave the
key in it with an empty value). -/
def FieldCodec.map (n : ℕ) (v : ValueCodec α) : FieldCodec (Map α) where
  nums := [n]
  init := ∅
  write m := (FieldCodec.repeated n (.message (entrySchema v))).write m.toList
  Writes m rs := ∃ es : List (Bytes × α),
    es.Perm m.toList ∧ (FieldCodec.repeated n (.message (entrySchema v))).Writes es rs
  Utf8 m := ∀ e ∈ m.toList, (entrySchema v).Utf8 e
  Ok d r := r.num = n → (ValueCodec.message (entrySchema v)).Ok d r.payload
  read d m r :=
    if r.num = n then
      ((ValueCodec.message (entrySchema v)).read d (entrySchema v).empty r.payload).map
        fun q => (q.1, if q.1 then m.insert q.2.1 q.2.2 else m)
    else none

end Maps

end Proto
