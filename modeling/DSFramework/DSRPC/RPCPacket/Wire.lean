import Mathlib.Algebra.GroupWithZero.Nat
import DSFramework.DSRPC.RPCPacket.Runtime

/-!
# A runtime

The documented wire format, read from bytes: varints of five and ten groups, numbers of fixed
width, and runs of bytes with their length before them. Groups, which no definition of this
repository has, are refused. `wire` satisfies what `Reading` and `Runtime` ask for.
-/

namespace DSFramework.DSRPC

/-! ## The lengths of varints -/

/-- Greater numbers are not shorter. -/
theorem length_varint_le (groups : Nat) {n m : Nat} (h : n ≤ m) :
    (varint groups n).length ≤ (varint groups m).length := by
  induction groups generalizing n m with
  | zero => exact Nat.le_refl _
  | succ groups ih =>
    unfold varint
    by_cases hn : n < 128
    · rw [if_pos hn]
      exact varint_pos groups m
    · rw [if_neg hn, if_neg (by omega)]
      exact Nat.succ_le_succ (ih (by omega))

theorem length_varint_le_groups (groups n : Nat) : (varint groups n).length ≤ groups := by
  induction groups generalizing n with
  | zero => exact Nat.le_refl _
  | succ groups ih =>
    unfold varint
    split
    · simp
    · exact Nat.succ_le_succ (ih _)

/-! ## Reading varints -/

/-- A varint of at most `groups` groups. -/
def readVarint : Nat → List UInt8 → Option (Nat × List UInt8)
  | 0, _ => none
  | _, [] => none
  | groups + 1, b :: bytes =>
    if b.toNat < 128 then some (b.toNat, bytes)
    else (readVarint groups bytes).map fun (n, rest) => (b.toNat - 128 + 128 * n, rest)

theorem readVarint_append {groups : Nat} {bytes rest : List UInt8} {n : Nat}
    (h : readVarint groups bytes = some (n, rest)) (tail : List UInt8) :
    readVarint groups (bytes ++ tail) = some (n, rest ++ tail) := by
  induction groups generalizing bytes n with
  | zero => cases h
  | succ groups ih =>
    cases bytes with
    | nil => cases h
    | cons b bytes =>
      rw [readVarint] at h
      rw [List.cons_append, readVarint]
      split at h
      · next hb =>
        cases h
        rw [if_pos hb]
      · next hb =>
        obtain ⟨⟨m, rest'⟩, hm, heq⟩ := Option.map_eq_some_iff.mp h
        cases heq
        rw [if_neg hb, ih hm]
        rfl

theorem readVarint_varint {groups n : Nat} (h : n < 128 ^ (groups + 1)) :
    readVarint (groups + 1) (varint (groups + 1) n) = some (n, []) := by
  induction groups generalizing n with
  | zero =>
    have hb : (UInt8.ofNat n).toNat = n := by
      rw [UInt8.toNat_ofNat']
      omega
    rw [varint, if_pos (by omega), readVarint, hb, if_pos (by omega)]
  | succ groups ih =>
    rw [varint]
    by_cases hn : n < 128
    · have hb : (UInt8.ofNat n).toNat = n := by
        rw [UInt8.toNat_ofNat']
        omega
      rw [if_pos hn, readVarint, hb, if_pos hn]
    · have hb : (UInt8.ofNat (n % 128 + 128)).toNat = n % 128 + 128 := by
        rw [UInt8.toNat_ofNat']
        omega
      have hrest : n / 128 < 128 ^ (groups + 1) := by
        rw [Nat.div_lt_iff_lt_mul (by decide)]
        exact h
      have heq : n % 128 + 128 - 128 + 128 * (n / 128) = n := by omega
      rw [if_neg hn, readVarint, hb, if_neg (by omega), ih hrest, Option.map_some]
      simp only [heq]

/-- What is read is written in no more bytes. -/
theorem length_of_readVarint {groups : Nat} {bytes rest : List UInt8} {n : Nat}
    (h : readVarint groups bytes = some (n, rest)) :
    (varint groups n).length + rest.length ≤ bytes.length := by
  induction groups generalizing bytes n with
  | zero => cases h
  | succ groups ih =>
    cases bytes with
    | nil => cases h
    | cons b bytes =>
      rw [readVarint] at h
      split at h
      · next hb =>
        cases h
        rw [varint, if_pos hb]
        simp only [List.length_cons, List.length_nil]
        omega
      · next hb =>
        obtain ⟨⟨m, rest'⟩, hm, heq⟩ := Option.map_eq_some_iff.mp h
        cases heq
        have hlen := ih hm
        have hdiv : (b.toNat - 128 + 128 * m) / 128 = m := by
          have := b.toNat_lt
          omega
        rw [varint, hdiv]
        split <;> simp only [List.length_cons, List.length_nil] <;> omega

/-! ## Reading what a field carries -/

namespace Content

/-- The wire type. -/
def kind : Content → Nat
  | .varint _ => 0
  | .bytes _ => 2
  | .other kind _ => kind

def write : Content → List UInt8
  | .varint n => DSRPC.varint 10 n.toNat
  | .bytes run => DSRPC.varint 5 run.length ++ run
  | .other _ encoding => encoding

end Content

theorem Field.write_eq (field : Field) :
    field.write = varint 5 (field.number * 8 + field.content.kind) ++ field.content.write := by
  unfold write writeBytes
  cases field.content <;> simp [Content.kind, Content.write]

/-- A number of a fixed width. -/
def readFixed (kind width : Nat) (bytes : List UInt8) : Option (Content × List UInt8) :=
  if bytes.length < width then none
  else some (.other kind (bytes.take width), bytes.drop width)

def readBytes (bytes : List UInt8) : Option (Content × List UInt8) :=
  match readVarint 5 bytes with
  | some (size, rest) =>
    if 2147483631 ≤ size ∨ rest.length < size then none
    else some (.bytes (rest.take size), rest.drop size)
  | none => none

def readContent (kind : Nat) (bytes : List UInt8) : Option (Content × List UInt8) :=
  match kind with
  | 0 => (readVarint 10 bytes).map fun (n, rest) => (.varint (UInt64.ofNat n), rest)
  | 1 => readFixed 1 8 bytes
  | 2 => readBytes bytes
  | 5 => readFixed 5 4 bytes
  | _ => none

/-- A reading of one kind of content that satisfies what `Reading` asks of fields. -/
structure Reads (kind : Nat) (read : List UInt8 → Option (Content × List UInt8)) : Prop where
  kind_eq {bytes rest : List UInt8} {c : Content} : read bytes = some (c, rest) → c.kind = kind
  append {bytes rest : List UInt8} {c : Content} (tail : List UInt8) :
    read bytes = some (c, rest) → read (bytes ++ tail) = some (c, rest ++ tail)
  write {bytes rest : List UInt8} {c : Content} :
    read bytes = some (c, rest) → read c.write = some (c, [])
  length {bytes rest : List UInt8} {c : Content} :
    read bytes = some (c, rest) → c.write.length + rest.length ≤ bytes.length

theorem reads_fixed (kind width : Nat) : Reads kind (readFixed kind width) where
  kind_eq h := by
    unfold readFixed at h
    split at h
    · cases h
    · cases h
      rfl
  append tail h := by
    unfold readFixed at h ⊢
    split at h
    · cases h
    · cases h
      rw [if_neg (by simp only [List.length_append]; omega), List.take_append_of_le_length (by omega),
        List.drop_append_of_le_length (by omega)]
  write h := by
    unfold readFixed at h ⊢
    split at h
    · cases h
    · cases h
      simp only [Content.write, List.length_take]
      rw [if_neg (by omega), List.take_take, Nat.min_self, List.drop_of_length_le (by rw [List.length_take]; omega)]
  length h := by
    unfold readFixed at h
    split at h
    · cases h
    · cases h
      simp only [Content.write, List.length_take, List.length_drop]
      omega

theorem readVarint_ten (n : UInt64) : readVarint 10 (varint 10 n.toNat) = some (n.toNat, []) :=
  readVarint_varint (Nat.lt_of_lt_of_le n.toNat_lt (by decide))

theorem reads_varint : Reads 0 (readContent 0) where
  kind_eq h := by
    obtain ⟨⟨n, rest⟩, -, heq⟩ := Option.map_eq_some_iff.mp h
    cases heq
    rfl
  append tail h := by
    obtain ⟨⟨n, rest⟩, hn, heq⟩ := Option.map_eq_some_iff.mp h
    cases heq
    simp only [readContent, readVarint_append hn, Option.map_some]
  write h := by
    obtain ⟨⟨n, rest⟩, -, heq⟩ := Option.map_eq_some_iff.mp h
    cases heq
    simp only [readContent, Content.write, readVarint_ten, Option.map_some, UInt64.ofNat_toNat]
  length h := by
    obtain ⟨⟨n, rest⟩, hn, heq⟩ := Option.map_eq_some_iff.mp h
    cases heq
    have hlen := length_of_readVarint hn
    have hmod : (UInt64.ofNat n).toNat ≤ n := by
      rw [UInt64.toNat_ofNat']
      exact Nat.mod_le _ _
    have hmono := length_varint_le 10 hmod
    simp only [Content.write]
    omega

theorem readBytes_write {bytes : List UInt8} (h : bytes.length < 2147483631) :
    readBytes (Content.bytes bytes).write = some (.bytes bytes, []) := by
  have hread : readVarint 5 (varint 5 bytes.length) = some (bytes.length, []) :=
    readVarint_varint (Nat.lt_of_lt_of_le h (by decide))
  have hread := readVarint_append hread bytes
  rw [List.nil_append] at hread
  unfold readBytes Content.write
  rw [hread]
  simp only
  rw [if_neg (by omega), List.take_length, List.drop_length]

/-- A run of bytes, taken apart. -/
theorem readBytes_cases {bytes rest : List UInt8} {c : Content}
    (h : readBytes bytes = some (c, rest)) :
    ∃ size tail, readVarint 5 bytes = some (size, tail) ∧ size < 2147483631 ∧
      size ≤ tail.length ∧ c = .bytes (tail.take size) ∧ rest = tail.drop size := by
  unfold readBytes at h
  split at h
  · next size tail hread =>
    split at h
    · cases h
    · cases h
      exact ⟨size, tail, hread, by omega, by omega, rfl, rfl⟩
  · cases h

theorem reads_bytes : Reads 2 (readContent 2) where
  kind_eq h := by
    obtain ⟨-, -, -, -, -, rfl, -⟩ := readBytes_cases h
    rfl
  append tail h := by
    obtain ⟨size, t, hread, hsize, hlen, rfl, rfl⟩ := readBytes_cases h
    simp only [readContent, readBytes, readVarint_append hread]
    rw [if_neg (by simp only [List.length_append]; omega), List.take_append_of_le_length hlen,
      List.drop_append_of_le_length hlen]
  write h := by
    obtain ⟨size, t, hread, hsize, hlen, rfl, rfl⟩ := readBytes_cases h
    exact readBytes_write (by rw [List.length_take]; omega)
  length h := by
    obtain ⟨size, t, hread, hsize, hlen, rfl, rfl⟩ := readBytes_cases h
    have hsum := length_of_readVarint hread
    simp only [Content.write, List.length_append, List.length_take, List.length_drop,
      Nat.min_eq_left hlen]
    omega

theorem reads_content (kind : Nat) : Reads kind (readContent kind) := by
  unfold readContent
  split
  · exact reads_varint
  · exact reads_fixed 1 8
  · exact reads_bytes
  · exact reads_fixed 5 4
  · exact { kind_eq := nofun, append := nofun, write := nofun, length := nofun }

/-! ## Reading a field -/

/-- A tag has 32 bits, and no field has the number 0. -/
def readField (bytes : List UInt8) : Option (Field × List UInt8) :=
  match readVarint 5 bytes with
  | some (n, rest) =>
    if n % 4294967296 / 8 = 0 then none
    else (readContent (n % 4294967296 % 8) rest).map fun (c, rest) =>
      (⟨n % 4294967296 / 8, c⟩, rest)
  | none => none

/-- A field, taken apart. -/
theorem readField_cases {bytes rest : List UInt8} {field : Field}
    (h : readField bytes = some (field, rest)) :
    ∃ n tail, readVarint 5 bytes = some (n, tail) ∧ n % 4294967296 / 8 ≠ 0 ∧
      field.number = n % 4294967296 / 8 ∧
      readContent (n % 4294967296 % 8) tail = some (field.content, rest) := by
  unfold readField at h
  split at h
  · next n tail hread =>
    split at h
    · cases h
    · next hnumber =>
      obtain ⟨⟨c, rest'⟩, hc, heq⟩ := Option.map_eq_some_iff.mp h
      cases heq
      exact ⟨n, tail, hread, hnumber, rfl, hc⟩
  · cases h

/-- A field is read where its tag and its contents are. -/
theorem readField_write {number : Nat} {c : Content} (hpos : 0 < number)
    (hlt : number < 536870912) (hkind : c.kind < 8)
    (hread : readContent c.kind c.write = some (c, [])) :
    readField (Field.write ⟨number, c⟩) = some (⟨number, c⟩, []) := by
  have htag : readVarint 5 (varint 5 (number * 8 + c.kind)) = some (number * 8 + c.kind, []) :=
    readVarint_varint (Nat.lt_of_lt_of_le (by omega : _ < 4294967296) (by decide))
  have htag := readVarint_append htag c.write
  rw [List.nil_append] at htag
  have hmod : (number * 8 + c.kind) % 4294967296 = number * 8 + c.kind :=
    Nat.mod_eq_of_lt (by omega)
  have hnumber : (number * 8 + c.kind) / 8 = number := by omega
  have hkind' : (number * 8 + c.kind) % 8 = c.kind := by omega
  rw [Field.write_eq, readField, htag]
  simp only [hmod, hnumber, hkind', hread, Option.map_some]
  rw [if_neg (by omega)]

/-- The wire format without groups. -/
def Reading.wire : Reading where
  readField _ := DSRPC.readField
  readField_append tail h := by
    obtain ⟨n, t, hread, hnumber, hfield, hc⟩ := readField_cases h
    unfold DSRPC.readField
    rw [readVarint_append hread]
    simp only [if_neg hnumber, (reads_content _).append tail hc, Option.map_some]
    rw [← hfield]
  readField_write h := by
    obtain ⟨n, t, hread, hnumber, hfield, hc⟩ := readField_cases h
    have hkind := (reads_content _).kind_eq hc
    exact DSRPC.readField_write (by omega) (by omega) (by omega)
      (hkind ▸ (reads_content _).write hc)
  readField_length {_ bytes rest field} h := by
    obtain ⟨n, t, hread, hnumber, hfield, hc⟩ := readField_cases h
    have htag := length_of_readVarint hread
    have hlen := (reads_content _).length hc
    have hkind := (reads_content _).kind_eq hc
    have hmono := length_varint_le 5 (Nat.mod_le n 4294967296)
    have heq : field.number * 8 + field.content.kind = n % 4294967296 := by omega
    rw [Field.write_eq, heq, List.length_append]
    omega
  readField_varint _ _ n hpos hlt :=
    DSRPC.readField_write hpos hlt (show 0 < 8 by decide)
      (by simp only [Content.kind, readContent, Content.write, readVarint_ten, Option.map_some,
        UInt64.ofNat_toNat])
  readField_bytes _ _ _ hpos hlt hsize :=
    DSRPC.readField_write hpos hlt (show 2 < 8 by decide) (readBytes_write hsize)

/-- The runtime that reads and writes this format. -/
def Runtime.wire : Runtime where
  toReading := .wire
  writeEnumToArray field value := varint 5 (field * 8) ++ varint 10 value.toInt64.toUInt64.toNat
  writeStringMaybeAliased field s := writeBytes field s.toUTF8.data.toList
  internalWriteMessage field message := writeBytes field message.internalSerialize
  enumSize value := (varint 10 value.toInt64.toUInt64.toNat).length
  stringSize s := lengthDelimitedSize s.toUTF8.data.toList.length
  messageSize message := lengthDelimitedSize message.byteSizeLong
  parseMessage message bytes := message.internalParse .wire bytes
  mergeFrom this «from» := this.mergeImpl «from»
  writeEnumToArray_eq _ _ _ := rfl
  writeStringMaybeAliased_eq _ _ _ := rfl
  internalWriteMessage_eq _ _ _ := rfl
  enumSize_eq _ := rfl
  stringSize_eq _ := rfl
  messageSize_eq _ := rfl
  parseMessage_eq _ _ := rfl
  mergeFrom_eq _ _ := rfl

end DSFramework.DSRPC
