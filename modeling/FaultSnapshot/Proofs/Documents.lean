import FaultSnapshot.Proofs.Frames
import FaultSnapshot.Proofs.Grammar
import FaultSnapshot.Proofs.Stamps
import FaultSnapshot.Report.Document

/-!
# Documents and their texts

Whatever a document holds, it is read back from its compact text and from its pretty text, and a
text that is read and written again does not change any more (`Document.survives_encoding`).
-/

namespace FaultSnapshot

namespace Json

theorem proper_ofNat (n : Nat) : Proper (ofNat n) := by
  rw [ofNat, Proper]
  refine .inl ⟨Nat.toDigits 10 n, [], [], ⟨Text.isDigits_toDigits n, ?_⟩, .inl rfl, .inl rfl, by simp⟩
  intro zero
  rw [Text.toDigits_zero_of_head zero]
  rfl

theorem nat?_ofNat {n bound : Nat} (fits : n ≤ bound) : nat? bound (ofNat n) = some n := by
  have read := Text.readDigits?_digits (fun _ => Text.isDigit_toDigits (n := n)) Nat.toDigits_ne_nil
  simp [nat?, ofNat, read, Text.digitsValue_toDigits, fits]

@[simp] theorem text?_ofString (s : String) : text? (ofString s) = some s := rfl

theorem proper_ofString (s : String) : Proper (ofString s) := by
  rw [ofString, Proper]
  rfl

theorem properMembers_map {members : List (String × Json)} (proper : ∀ m ∈ members, Proper m.2) :
    ProperMembers (members.map fun m => (some m.1, m.2)) := by
  induction members with
  | nil => trivial
  | cons m members ih =>
    rw [List.map_cons, ProperMembers]
    exact ⟨rfl, proper m List.mem_cons_self, ih fun m member => proper m (List.mem_cons_of_mem _ member)⟩

theorem proper_ofMembers {members : List (String × Json)} (proper : ∀ m ∈ members, Proper m.2) :
    Proper (ofMembers members) := by
  rw [ofMembers, Proper]
  exact properMembers_map proper

theorem properItems {items : List Json} (proper : ∀ item ∈ items, Proper item) : ProperItems items := by
  induction items with
  | nil => trivial
  | cons item items ih =>
    rw [ProperItems]
    exact ⟨proper item List.mem_cons_self, ih fun item member => proper item (List.mem_cons_of_mem _ member)⟩

end Json

namespace FrameDocument

theorem vars?_ofMembers (vars : OrderedMap String String) :
    vars? (.ofMembers (vars.entries.map fun e => (e.1, .ofString e.2))) = some vars := by
  have entries : ∀ es : List (String × String),
      (es.map fun e => (some e.1, Json.ofString e.2)).mapM entry? = some es := by
    intro es
    induction es with
    | nil => rfl
    | cons e es ih => simp [ entry?, ih]
  simp [vars?, Json.ofMembers, Function.comp_def, entries, OrderedMap.ofList_entries]

theorem ofJson?_toJson (f : FrameDocument) : ofJson? f.toJson = some f := by
  obtain ⟨owner, method, vars⟩ := f
  have fields : (toJson ⟨owner, method, vars⟩).fields? fieldNames =
      some [some (owner.elim .null .ofString), some (.ofString method),
        some (.ofMembers (vars.entries.map fun e => (e.1, .ofString e.2)))] := by
    simp [toJson, Json.ofMembers, Json.fields?, Json.membersOf?, fieldNames]
  simp only [ofJson?, fields]
  have owners : Json.orNull? Json.text? (owner.elim .null .ofString) = some owner := by cases owner <;> rfl
  simp [owners, vars?_ofMembers]

theorem proper_toJson (f : FrameDocument) : f.toJson.Proper := by
  refine Json.proper_ofMembers ?_
  simp only [List.forall_mem_cons, List.not_mem_nil, false_implies, implies_true, and_true]
  refine ⟨?_, Json.proper_ofString _, Json.proper_ofMembers ?_⟩
  · cases f.owner with
    | none => exact True.intro
    | some owner => exact Json.proper_ofString owner
  · intro m member
    obtain ⟨e, _, rfl⟩ := List.mem_map.mp member
    exact Json.proper_ofString e.2

end FrameDocument

namespace ReportKind

theorem ofName?_name (kind : ReportKind) : ofName? kind.name = some kind := by
  cases kind <;> rfl

end ReportKind

namespace Document

theorem word?_wordJson (n : UInt64) : word? (wordJson n) = some n := by
  have fits : n.toNat ≤ UInt64.size - 1 := Nat.le_sub_one_of_lt n.toNat_lt
  rw [word?, wordJson, Json.nat?_ofNat fits, Option.map_some, UInt64.ofNat_toNat]

theorem frames?_array (frames : List FrameDocument) :
    frames? (.array (frames.map FrameDocument.toJson)) = some frames := by
  show (frames.map FrameDocument.toJson).mapM FrameDocument.ofJson? = some frames
  induction frames with
  | nil => rfl
  | cons f frames ih => simp [FrameDocument.ofJson?_toJson, ih]

theorem ofJson?_toJson (d : Document) : ofJson? d.toJson = some d := by
  obtain ⟨kind, triggerId, occurredAt, error, thresholdMs, actualMs, frames⟩ := d
  have fields : (toJson ⟨kind, triggerId, occurredAt, error, thresholdMs, actualMs, frames⟩).fields? fieldNames =
      some [some (.ofString kind.name), some (.ofString triggerId.text), some (.ofString occurredAt.text),
        error.map .ofString, thresholdMs.map wordJson, actualMs.map wordJson,
        some (.array (frames.map FrameDocument.toJson))] := by
    cases error <;> cases thresholdMs <;> cases actualMs <;>
      simp [toJson, optional, Json.ofMembers, Json.fields?, Json.membersOf?, fieldNames]
  have text : optional? Json.text? (error.map .ofString) = some error := by cases error <;> rfl
  have words : ∀ n : Option UInt64, optional? word? (n.map wordJson) = some n := by
    intro n
    cases n with
    | none => rfl
    | some n =>
      show (word? (wordJson n)).map some = some (some n)
      rw [word?_wordJson, Option.map_some]
  simp only [ofJson?, fields]
  have named : Json.name? (.ofString kind.name) = some kind.name := rfl
  simp [named, ReportKind.ofName?_name, Uuid.read?_text, Instant.read?_text, text, words, frames?_array]

theorem proper_optional {α : Type} {name : String} {encode : α → Json} (proper : ∀ a, (encode a).Proper)
    (field : Option α) : ∀ m ∈ optional name encode field, m.2.Proper := by
  cases field with
  | none => exact fun _ member => nomatch member
  | some a => exact List.forall_mem_singleton.mpr (proper a)

theorem proper_toJson (d : Document) : d.toJson.Proper := by
  refine Json.proper_ofMembers ?_
  simp only [List.forall_mem_append, List.forall_mem_cons, List.not_mem_nil, false_implies, implies_true, and_true]
  have frames : (Json.array (d.frames.map FrameDocument.toJson)).Proper := by
    rw [Json.Proper]
    refine Json.properItems ?_
    intro item member
    obtain ⟨f, _, rfl⟩ := List.mem_map.mp member
    exact f.proper_toJson
  exact ⟨⟨⟨⟨⟨Json.proper_ofString _, Json.proper_ofString _, Json.proper_ofString _⟩,
    proper_optional Json.proper_ofString d.error⟩, proper_optional (fun n => Json.proper_ofNat n.toNat) d.thresholdMs⟩,
    proper_optional (fun n => Json.proper_ofNat n.toNat) d.actualMs⟩, frames⟩

theorem read?_compact (d : Document) : read? d.compact = some d := by
  rw [read?, compact, Json.read?_compactText d.proper_toJson]
  exact d.ofJson?_toJson

theorem read?_pretty (d : Document) : read? d.pretty = some d := by
  rw [read?, pretty, Json.read?_prettyText d.proper_toJson]
  exact d.ofJson?_toJson

/-- Every document is read back from both of its texts, and reading and writing any text that is
    accepted gives a text that stays as it is when this is done again. -/
theorem survives_encoding :
    (∀ d : Document, read? d.compact = some d ∧ read? d.pretty = some d) ∧
      ∀ text t : String, ((read? text).map compact = some t → (read? t).map compact = some t) ∧
        ((read? text).map pretty = some t → (read? t).map pretty = some t) := by
  refine ⟨fun d => ⟨d.read?_compact, d.read?_pretty⟩, ?_⟩
  intro text t
  constructor
  · intro written
    obtain ⟨d, _, rfl⟩ := Option.map_eq_some_iff.mp written
    rw [d.read?_compact, Option.map_some]
  · intro written
    obtain ⟨d, _, rfl⟩ := Option.map_eq_some_iff.mp written
    rw [d.read?_pretty, Option.map_some]

end Document

end FaultSnapshot
