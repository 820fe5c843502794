import Fillout.Snapshot.Payload
import Mathlib.Data.List.Basic

set_option autoImplicit false

/-! # Payloads read back

What is written for a payload reads back as this payload (`read?_write`). Each writer has its
reader, and the law that ties them is the same for all (`ReadsBack`): what is written for a value
reads back as this value, whatever stands behind it.

The law has a condition, since the length of a text or of a list is written as a number, and a
number has to be below 2⁶⁴ to be written in full. The condition is put on the bytes and not on the
value: they are fewer than 2⁶⁴. It then holds of all parts of what is written, and it bounds the
length of every text and of every list in it, because an item takes at least one byte
(`length_le_length_flatMap`). The numbers themselves are bounded by no length, and have a condition
of their own.
-/

namespace Fillout

namespace Payload

/-- What is written for a value reads back as this value, whatever stands behind it, unless there
are too many bytes for a length to be written. -/
def ReadsBack {α : Type} (write : α → Bytes) (read : Bytes → Option (α × Bytes)) (x : α) : Prop :=
  (write x).length < 2 ^ 64 → ∀ rest, read (write x ++ rest) = some (x, rest)

variable {α : Type} {write : α → Bytes} {read : Bytes → Option (α × Bytes)}

/-! ## Texts, options and lists -/

theorem readNumber_write {n : Nat} (h : n < 2 ^ 64) (rest : Bytes) :
    readNumber (Varint.write n ++ rest) = some (n, rest) := Varint.read_write h rest

theorem readsBack_text (t : Text) : ReadsBack writeText readText t := by
  intro h rest
  have hlength : (Bytes.ofText t).length < 2 ^ 64 := by
    unfold writeText at h
    rw [List.length_append] at h
    omega
  unfold readText writeText
  rw [List.append_assoc, readNumber_write hlength]
  simp only [Option.bind_eq_bind, Option.bind_some]
  rw [Bytes.splitAt?_append rfl]
  simp only [Option.bind_some]
  rw [Bytes.toText?_ofText]
  rfl

theorem readsBack_option {x? : Option α} (h : ∀ x ∈ x?, ReadsBack write read x) :
    ReadsBack (writeOption write) (readOption read) x? := by
  intro hlength rest
  cases x? with
  | none => rfl
  | some x =>
      have hx : (write x).length < 2 ^ 64 := by
        rw [writeOption, List.length_cons] at hlength
        omega
      rw [writeOption, List.cons_append, readOption, if_neg (by decide), if_pos rfl,
        h x rfl hx rest]
      rfl

theorem length_le_length_flatMap (hwrite : ∀ x, write x ≠ []) (xs : List α) :
    xs.length ≤ (xs.flatMap write).length := by
  induction xs with
  | nil => exact Nat.le_refl _
  | cons x xs ih =>
      have hx : 0 < (write x).length := List.length_pos_iff.2 (hwrite x)
      rw [List.flatMap_cons, List.length_append, List.length_cons]
      omega

theorem readItems_flatMap {xs : List α} (h : ∀ x ∈ xs, ReadsBack write read x)
    (hlength : (xs.flatMap write).length < 2 ^ 64) (rest : Bytes) :
    readItems read xs.length (xs.flatMap write ++ rest) = some (xs, rest) := by
  induction xs with
  | nil => rfl
  | cons x xs ih =>
      obtain ⟨hx, hxs⟩ := List.forall_mem_cons.1 h
      rw [List.flatMap_cons, List.length_append] at hlength
      rw [List.flatMap_cons, List.append_assoc, List.length_cons, readItems, hx (by omega)]
      simp only [Option.bind_eq_bind, Option.bind_some]
      rw [ih hxs (by omega)]
      rfl

theorem readsBack_list {xs : List α} (hwrite : ∀ x, write x ≠ [])
    (h : ∀ x ∈ xs, ReadsBack write read x) : ReadsBack (writeList write) (readList read) xs := by
  intro hlength rest
  have hcount := length_le_length_flatMap hwrite xs
  unfold writeList at hlength ⊢
  rw [List.length_append] at hlength
  unfold readList
  rw [List.append_assoc, readNumber_write (by omega)]
  exact readItems_flatMap h (by omega) rest

theorem varint_ne_nil (n : Nat) : Varint.write n ≠ [] := by
  unfold Varint.write
  split
  · exact List.cons_ne_nil _ _
  split
  · exact List.cons_ne_nil _ _
  split <;> exact List.cons_ne_nil _ _

theorem writeText_ne_nil (t : Text) : writeText t ≠ [] :=
  List.append_ne_nil_of_left_ne_nil (varint_ne_nil _) _

/-! ## Entries -/

/-- The number of a choice reads back. -/
theorem readChoice_write {n : Nat} (h : n ≤ Varint.largestSingle) (rest : Bytes) :
    readChoice (Varint.write n ++ rest) = some (n, rest) := Varint.read_write_single h rest

theorem readsBack_id {id : RuleId} (h : id.number < 2 ^ 64) : ReadsBack writeId readId id := by
  intro _ rest
  cases id with
  | ordinary n =>
      have hn : n < 2 ^ 64 := h
      unfold readId writeId
      rw [List.append_assoc, readChoice_write (by decide)]
      show (readNumber _).map _ = _
      rw [readNumber_write hn]
      rfl
  | template n =>
      have hn : n < 2 ^ 64 := h
      unfold readId writeId
      rw [List.append_assoc, readChoice_write (by decide)]
      show (readNumber _).map _ = _
      rw [readNumber_write hn]
      rfl

theorem readsBack_value (value : RuleValue) : ReadsBack writeValue readValue value := by
  intro h rest
  cases value with
  | literal t =>
      have ht : (writeText t).length < 2 ^ 64 :=
        Nat.lt_of_le_of_lt (List.suffix_append _ _).length_le h
      unfold readValue writeValue
      rw [List.append_assoc, readChoice_write (by decide)]
      show (readText _).map _ = _
      rw [readsBack_text t ht]
      rfl
  | computed t =>
      have ht : (writeText t).length < 2 ^ 64 :=
        Nat.lt_of_le_of_lt (List.suffix_append _ _).length_le h
      unfold readValue writeValue
      rw [List.append_assoc, readChoice_write (by decide)]
      show (readText _).map _ = _
      rw [readsBack_text t ht]
      rfl

/-- A threshold is written as a number, and read as one. -/
theorem readOption_threshold (threshold : Option UInt64) (rest : Bytes) :
    readOption readNumber (writeOption (fun n => Varint.write n.toNat) threshold ++ rest) =
      some (threshold.map UInt64.toNat, rest) := by
  cases threshold with
  | none => rfl
  | some n =>
      rw [writeOption, List.cons_append, readOption, if_neg (by decide), if_pos rfl,
        readNumber_write n.toNat_lt]
      rfl

theorem writeEntry_ne_nil (e : PayloadEntry) : writeEntry e ≠ [] := by
  refine List.append_ne_nil_of_left_ne_nil ?_ _
  cases e.id <;> exact List.append_ne_nil_of_left_ne_nil (varint_ne_nil _) _

theorem readsBack_entry {e : PayloadEntry} (h : e.id.number < 2 ^ 64) :
    ReadsBack writeEntry readEntry e := by
  intro hlength rest
  have hscope :
      ReadsBack (writeOption (writeList writeText)) (readOption (readList readText)) e.scope :=
    readsBack_option fun names _ => readsBack_list writeText_ne_nil fun t _ => readsBack_text t
  have hsubject : ReadsBack (writeOption writeText) (readOption readText) e.subject :=
    readsBack_option fun t _ => readsBack_text t
  have hthreshold : (e.threshold.map UInt64.toNat).map UInt64.ofNat = e.threshold := by
    rw [Option.map_map]
    cases e.threshold with
    | none => rfl
    | some n => exact congrArg some n.ofNat_toNat
  unfold writeEntry at hlength ⊢
  simp only [List.length_append] at hlength
  have hid := readsBack_id h (by omega)
  have hkind := readsBack_text e.kind (by omega)
  have hpattern := readsBack_text e.pattern (by omega)
  have hvalue := readsBack_value e.value (by omega)
  have hscope := hscope (by omega)
  have howner := readsBack_text e.owner (by omega)
  have hsubject := hsubject (by omega)
  simp only [readEntry, List.append_assoc, hid, hkind, hpattern, hvalue, hscope,
    readOption_threshold, howner, hsubject, Option.bind_eq_bind, Option.bind_some, hthreshold]

/-! ## Payloads -/

/-- A payload that can be written in full: its numbers are below 2⁶⁴, and a digest has 32 bytes. -/
structure IsWritable (p : Payload) : Prop where
  lastOrdinary : p.lastOrdinary < 2 ^ 64
  lastTemplate : p.lastTemplate < 2 ^ 64
  source : ∀ digest ∈ p.source, digest.length = 32
  size : p.size = p.entries.length
  ids : ∀ e ∈ p.entries, e.id.number < 2 ^ 64

/-- A payload reads back. -/
theorem IsWritable.read?_write {p : Payload} (h : p.IsWritable)
    (hlength : p.write.length < 2 ^ 64) : read? p.write = some p := by
  have hsource : ReadsBack (writeOption id) (readOption (Bytes.splitAt? 32)) p.source :=
    readsBack_option fun digest hdigest _ rest =>
      Bytes.splitAt?_append (h.source digest hdigest) rest
  have hentries : ReadsBack (writeList writeEntry) (readList readEntry) p.entries :=
    readsBack_list writeEntry_ne_nil fun e he => readsBack_entry (h.ids e he)
  have hcount := length_le_length_flatMap writeEntry_ne_nil p.entries
  unfold write at hlength ⊢
  simp only [List.length_append] at hlength
  have hsize : p.size < 2 ^ 64 := by
    have hlist : (writeList writeEntry p.entries).length =
        (Varint.write p.entries.length).length + (p.entries.flatMap writeEntry).length :=
      List.length_append
    rw [h.size]
    omega
  have hsource := hsource (by omega)
  have hentries := hentries (by omega) []
  rw [List.append_nil] at hentries
  simp only [read?, readNumber_write hsize, readNumber_write h.lastOrdinary,
    readNumber_write h.lastTemplate, hsource, hentries, Option.bind_eq_bind, Option.bind_some]

end Payload

end Fillout
