import FormatCompiler.Listing.Embedded
import FormatCompiler.Proofs.Base64
import FormatCompiler.Proofs.ListingRoundTrip
import FormatCompiler.Proofs.Outcome
import FormatCompiler.Proofs.Utf8

/-!
Formats carried in the name of a type. Blanks aside, the payload of a type says exactly what the
listing of the format says, so a format comes out of a type as it comes out of its listing, and so
do the formats nested in it.
-/

namespace FormatCompiler

set_option autoImplicit false

/-- The listing of a format in Base64. -/
def Listing.payloadText (format : Format) : List Char :=
  (Text.Base64.encode (Text.Utf8.encode (write format))).map fun byte => Char.ofNat byte.toNat

theorem TypeRef.embed_eq (format : Format) :
    TypeRef.embed format = .named (scopeMark ++ String.ofList (Listing.payloadText format)) :=
  rfl

namespace Listing

theorem payloadText_ne_nil (format : Format) : payloadText format ≠ [] := by
  have inhabited : write format ≠ [] := by simp [write, rows]
  have bytes : Text.Utf8.encode (write format) ≠ [] := by
    intro empty
    have decoded := Text.Utf8.decode_encode (write format)
    rw [empty] at decoded
    exact inhabited (Except.ok.inj decoded).symm
  have symbols := Text.Base64.encode_ne_nil bytes
  simpa [payloadText] using symbols

theorem payload_embed (format : Format) :
    (TypeRef.embed format).payload? = some (String.ofList (payloadText format)) := by
  have inhabited : (payloadText format).isEmpty = false :=
    List.isEmpty_eq_false_iff.mpr (payloadText_ne_nil format)
  have behind : Name.dropPrefix TypeRef.scopeMark.toList
      (TypeRef.scopeMark ++ String.ofList (payloadText format)).toList =
        some (payloadText format) := by
    simp [Name.dropPrefix]
  rw [TypeRef.embed_eq, TypeRef.payload?, behind, Option.filter_some, inhabited]
  rfl

/-- A payload has no blanks of its own. -/
theorem compact_payloadText (format : Format) :
    Text.compact (payloadText format) = payloadText format := by
  have dense : ∀ byte ∈ Text.Base64.encode (Text.Utf8.encode (write format)),
      Text.isBlank (Char.ofNat byte.toNat) = false :=
    Text.Base64.forall_mem_encode (by decide) (by decide) _
  rw [Text.compact, List.filter_eq_self]
  intro c member
  obtain ⟨byte, symbol, rfl⟩ := List.mem_map.mp member
  simp [dense byte symbol]

/-- A payload stays on its line, whatever is in the format. -/
theorem oneLine_embed (format : Format) :
    ∀ string ∈ (TypeRef.embed format).strings, OneLine string := by
  have dense : '\n' ∉ payloadText format := by
    rw [← compact_payloadText]
    exact fun member => absurd (List.mem_filter.mp member).2 (by decide)
  have mark : '\n' ∉ TypeRef.scopeMark.toList := by decide
  simp [TypeRef.embed_eq, TypeRef.strings, OneLine, dense, mark]

/-- Formats nested in a format never keep it from being listed. -/
theorem isListable_of_types {name : String} {types : List TypeDecl} (order : ByteOrder)
    (line : OneLine name) (counted : types.length < UInt64.size)
    (lines : ∀ decl ∈ types, OneLine decl.name ∧
      ((∃ format, decl.type = .embed format) ∨ ∀ string ∈ decl.type.strings, OneLine string)) :
    Format.IsListable { name, order, types } := by
  have each : ∀ decl ∈ types, ∀ string ∈ decl.strings, OneLine string := by
    intro decl member
    obtain ⟨own, ⟨format, carried⟩ | plain⟩ := lines decl member
    · rw [TypeDecl.strings, carried]
      exact List.forall_mem_cons.mpr ⟨own, oneLine_embed format⟩
    · exact List.forall_mem_cons.mpr ⟨own, plain⟩
  have none : 0 < UInt64.size := by decide
  rw [Format.isListable_iff]
  simp only [List.length_nil, List.not_mem_nil, false_implies, implies_true, and_true, true_and]
  exact ⟨⟨line, each⟩, none, counted, none, none, none, none⟩

theorem encode_payloadText (format : Format) :
    Text.Utf8.encode (payloadText format) =
      Text.Base64.encode (Text.Utf8.encode (write format)) :=
  Text.Utf8.encode_ascii _ (Text.Base64.forall_mem_encode (by decide) (by decide) _)

/-- A text that is the payload of a format, blanks aside, is read as the listing of the format. -/
theorem readPayload_of_compact {format : Format} {text : List Char}
    (same : Text.compact text = payloadText format) :
    readPayload text = (read (write format)).mapError .listing := by
  rw [readPayload, same, encode_payloadText, Text.Base64.decode_encode]
  generalize write format = listing
  change (Text.Utf8.decode (Text.Utf8.encode listing)).mapError PayloadFault.utf8 >>= _ = _
  rw [Text.Utf8.decode_encode]
  rfl

theorem unembed_of_compact {format : Format} (name : String) {text : String}
    (same : Text.compact text.toList = payloadText format) :
    unembed name text =
      (read (write format)).mapError fun fault => { name, fault := .listing fault } := by
  rw [unembed, readPayload_of_compact same]
  cases read (write format) <;> rfl

theorem unembed_payload (format : Format) (name : String) :
    unembed name (String.ofList (payloadText format)) =
      (read (write format)).mapError fun fault => { name, fault := .listing fault } := by
  apply unembed_of_compact
  rw [String.toList_ofList, compact_payloadText]

/-- The format that a payload carries, or one that is carried deeper: with each of `places` the type
declared there is opened in turn. -/
def openAt (name payload : String) : List Nat → Option Format
  | [] => (unembed name payload).toOption
  | place :: places => do
    let outer ← (unembed name payload).toOption
    let decl ← outer.types[place]?
    openAt decl.name (← decl.type.payload?) places

/-- The format `inner` stands inside `outer`: a type declared there carries it, or carries a format
that it stands inside. The formats around it can be read from their listings. -/
inductive Embeds : Format → List Nat → Format → Prop where
  | itself (format : Format) : Embeds format [] format
  | inside {outer middle inner : Format} {name : String} {place : Nat} {places : List Nat}
      (readable : ∃ found, read (write outer) = .ok found)
      (declared : outer.types[place]? = some { name, type := .embed middle })
      (deeper : Embeds middle places inner) : Embeds outer (place :: places) inner

/-- Types are kept as they are by a listing. -/
theorem types_of_read {format found : Format} (readBack : read (write format) = .ok found) :
    found.types = format.types := by
  by_cases listable : format.IsListable
  · rw [read_of_listable listable] at readBack
    cases readBack
    rfl
  · obtain ⟨fault, failed⟩ := read_of_unlistable listable
    rw [failed] at readBack
    cases readBack

theorem openAt_of_embeds {outer inner : Format} {places : List Nat}
    (embeds : Embeds outer places inner) (name : String) {text : String}
    (same : Text.compact text.toList = payloadText outer) :
    openAt name text places = (read (write inner)).toOption := by
  induction embeds generalizing name text with
  | itself format =>
    rw [openAt, unembed_of_compact name same]
    cases read (write format) <;> rfl
  | @inside outer middle inner declName place places readable declared deeper ih =>
    obtain ⟨found, readBack⟩ := readable
    have opened : (unembed name text).toOption = some found := by
      rw [unembed_of_compact name same, readBack]
      rfl
    have listed : found.types[place]? = some { name := declName, type := .embed middle } := by
      rw [types_of_read readBack, declared]
    simp only [openAt, opened, Option.bind_eq_bind, Option.bind_some, listed, payload_embed]
    apply ih
    rw [String.toList_ofList, compact_payloadText]

/-- What a type carries is what the listing says. The payload is always there. With blanks put
anywhere into it, it still yields what reading the listing of the format yields; where the listing
is malformed, the fault is reported under the name of the type. The same holds of the formats that
stand inside it, at any depth. -/
theorem embedded_faithful (format : Format) :
    ∃ payload, (TypeRef.embed format).payload? = some payload ∧
      ∀ name text : String, Text.compact text.toList = payload.toList →
        (∀ found, read (write format) = .ok found → unembed name text = .ok found) ∧
        (∀ fault, read (write format) = .error fault →
          unembed name text = .error { name, fault := .listing fault }) ∧
        ∀ places inner, Embeds format places inner →
          openAt name text places = (read (write inner)).toOption := by
  refine ⟨String.ofList (payloadText format), payload_embed format, ?_⟩
  intro name text same
  rw [String.toList_ofList] at same
  refine ⟨?_, ?_, fun places inner embeds => openAt_of_embeds embeds name same⟩
  · intro found readBack
    rw [unembed_of_compact name same, readBack]
    rfl
  · intro fault failed
    rw [unembed_of_compact name same, failed]
    rfl

/-- Two levels, with blanks of several kinds around the payload; and a format that cannot be
listed, found out under the name it is declared by. -/
theorem embedded_faithful_nested :
    let inner : Format := { name := "\"é\\", order := .big }
    let middle : Format := { name := "m", order := .big, types := [⟨"i", .embed inner⟩] }
    let outer : Format :=
      { name := "outer", order := .little,
        types := [⟨"w", .primitive .u1⟩, ⟨"outer::m", .embed middle⟩] }
    let broken : Format := { name := "a\nb", order := .big }
    openAt "o" (String.ofList (['\n', '\u3000'] ++ payloadText outer ++ ['\t'])) [1, 0] =
        some inner ∧
      ∃ fault, unembed "b" (String.ofList (payloadText broken)) =
        .error { name := "b", fault := .listing fault } := by
  intro inner middle outer broken
  have innerListable : inner.IsListable := ⟨by decide, by decide⟩
  have middleListable : middle.IsListable := by
    refine isListable_of_types _ (by decide) (by decide) ?_
    exact List.forall_mem_singleton.mpr ⟨by decide, .inl ⟨inner, rfl⟩⟩
  have outerListable : outer.IsListable := by
    refine isListable_of_types _ (by decide) (by decide) (List.forall_mem_cons.mpr ⟨?_, ?_⟩)
    · exact ⟨by decide, .inr (by decide)⟩
    · exact List.forall_mem_singleton.mpr ⟨by decide, .inl ⟨middle, rfl⟩⟩
  constructor
  · obtain ⟨payload, isPayload, faithful⟩ := embedded_faithful outer
    rw [payload_embed, Option.some.injEq] at isPayload
    have blanks : Text.compact (['\n', '\u3000'] ++ payloadText outer ++ ['\t']) =
        Text.compact (payloadText outer) := by
      simp [Text.compact, Text.isBlank]
    have found := (faithful "o" (String.ofList (['\n', '\u3000'] ++ payloadText outer ++ ['\t']))
      (by rw [← isPayload, String.toList_ofList, String.toList_ofList, blanks,
        compact_payloadText])).2.2 [1, 0] inner
      (.inside ⟨_, read_of_listable outerListable⟩ rfl
        (.inside ⟨_, read_of_listable middleListable⟩ rfl (.itself inner)))
    rw [read_of_listable innerListable] at found
    exact found
  · have unlistable : ¬ broken.IsListable := by
      intro listable
      exact absurd (listable.oneLine "a\nb" (by decide)) (by decide)
    obtain ⟨fault, failed⟩ := read_of_unlistable unlistable
    obtain ⟨payload, isPayload, faithful⟩ := embedded_faithful broken
    rw [payload_embed, Option.some.injEq] at isPayload
    refine ⟨fault, (faithful "b" _ ?_).2.1 fault failed⟩
    rw [← isPayload, String.toList_ofList, compact_payloadText]

end Listing

end FormatCompiler
