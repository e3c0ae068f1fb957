import FaultSnapshot.Proofs.Documents
import FaultSnapshot.Proofs.Readings
import FaultSnapshot.Settings.Document
import Mathlib.Data.List.Perm.Basic

/-!
# Presentations of settings

The same settings can be given in many ways: as an object with its members in any order, other members
among them and spaces anywhere, or as an array. All of them are read, and nothing else is
(`Settings.read_as_presented`): no number is cut to fit, and no member is missing or given twice.
-/

namespace FaultSnapshot

/-! ## Values -/

namespace Json

/-- The number is digits alone, which stand for `n`. -/
def Counts (j : Json) (n : Nat) : Prop := ∃ ds, j = .number ds ∧ Text.IsDigits ds ∧ Text.digitsValue ds = n

/-- The name is given as a string, or as the only member of an object, with null under it. -/
def Names (j : Json) (name : String) : Prop := j = .ofString name ∨ j = .object [(some name, .null)]

variable {j : Json}

theorem nat?_eq_some_iff {bound n : Nat} : j.nat? bound = some n ↔ j.Counts n ∧ n ≤ bound := by
  cases j with
  | number ds =>
    refine Text.bounded_eq_some_iff.trans ?_
    simp [Counts]
  | _ => simp [nat?, Counts]

theorem name?_eq_some_iff {name : String} : j.name? = some name ↔ j.Names name := by
  unfold name?
  split <;> simp_all [Names, ofString]

/-! ## Members -/

/-- The members are the fields, each once and in any order, among others of other names. -/
def Gives (fields : List (String × Json)) (members : List (Option String × Json)) : Prop :=
  ∃ others, members.Perm (fields.map (fun f => (some f.1, f.2)) ++ others) ∧
    ∀ m ∈ others, ∃ name, m.1 = some name ∧ name ∉ fields.map Prod.fst

/-- All names are texts, and of each field there is one member. -/
structure GivesEach (fields : List (String × Json)) (members : List (Option String × Json)) : Prop where
  named : ∀ m ∈ members, m.1.isSome = true
  once : ∀ f ∈ fields, members.filter (fun m => m.1 = some f.1) = [(some f.1, f.2)]

variable {fields : List (String × Json)} {members : List (Option String × Json)}

/-- The value that is looked up under a name is that of its only member. -/
theorem only_member_iff {name : String} {value : Json} :
    (match members.filter fun m => m.1 = some name with
      | [] => some none
      | [m] => some (some m.2)
      | _ => none) = some (some value) ↔ members.filter (fun m => m.1 = some name) = [(some name, value)] := by
  have same : ∀ m ∈ members.filter (fun m => m.1 = some name), m.1 = some name := by
    intro m member
    simpa using (List.mem_filter.mp member).2
  split
  · rename_i nothing
    simp [nothing]
  · rename_i m only
    have named := same m (by simp [only])
    simp [only, Prod.ext_iff, named]
  · rename_i other
    simp only [reduceCtorEq, false_iff]
    exact other _

theorem mapM_names_iff {α : Type} {look : String → Option α} {found : String × Json → α} :
    (fields.map Prod.fst).mapM look = some (fields.map found) ↔ ∀ f ∈ fields, look f.1 = some (found f) := by
  induction fields with
  | nil => simp
  | cons f fields ih =>
    rw [List.map_cons, List.map_cons, List.mapM_cons, List.forall_mem_cons, ← ih]
    simp [Option.bind_eq_some_iff]

theorem membersOf?_eq_some_iff :
    membersOf? (fields.map Prod.fst) members = some (fields.map fun f => some f.2) ↔ GivesEach fields members := by
  unfold membersOf?
  split
  · rename_i texts
    have named : ∀ m ∈ members, m.1.isSome = true := List.all_eq_true.mp texts
    rw [mapM_names_iff]
    constructor
    · exact fun found => ⟨named, fun f member => only_member_iff.mp (found f member)⟩
    · exact fun gives f member => only_member_iff.mpr (gives.once f member)
  · rename_i texts
    simp only [reduceCtorEq, false_iff]
    exact fun gives => texts (List.all_eq_true.mpr gives.named)

/-- Of fields with different names each stands once. -/
theorem filter_fields (nodup : (fields.map Prod.fst).Nodup) {f : String × Json} (member : f ∈ fields) :
    (fields.map fun f => (some f.1, f.2)).filter (fun m => m.1 = some f.1) = [(some f.1, f.2)] := by
  induction fields with
  | nil => cases member
  | cons g fields ih =>
    rw [List.map_cons, List.nodup_cons] at nodup
    rcases List.mem_cons.mp member with rfl | later
    · have others : (fields.map fun g => (some g.1, g.2)).filter (fun m => m.1 = some f.1) = [] := by
        rw [List.filter_eq_nil_iff]
        intro m inside
        obtain ⟨g, other, rfl⟩ := List.mem_map.mp inside
        have ne : g.1 ≠ f.1 := fun same => nodup.1 (same ▸ List.mem_map_of_mem other)
        simpa using ne
      rw [List.map_cons, List.filter_cons_of_pos (by simp), others]
    · have ne : g.1 ≠ f.1 := fun same => nodup.1 (same ▸ List.mem_map_of_mem later)
      rw [List.map_cons, List.filter_cons_of_neg (by simpa using ne), ih nodup.2 later]

theorem Gives.each (gives : Gives fields members) (nodup : (fields.map Prod.fst).Nodup) : GivesEach fields members := by
  obtain ⟨others, order, unknown⟩ := gives
  constructor
  · intro m member
    rcases List.mem_append.mp (order.mem_iff.mp member) with field | other
    · obtain ⟨f, _, rfl⟩ := List.mem_map.mp field
      rfl
    · obtain ⟨name, named, _⟩ := unknown m other
      rw [named]
      rfl
  · intro f member
    have none : others.filter (fun m => m.1 = some f.1) = [] := by
      rw [List.filter_eq_nil_iff]
      intro m other
      obtain ⟨name, named, new⟩ := unknown m other
      have ne : name ≠ f.1 := fun same => new (same ▸ List.mem_map_of_mem member)
      simpa [named] using ne
    have found := order.filter (fun m => m.1 = some f.1)
    rw [List.filter_append, filter_fields nodup member, none, List.append_nil] at found
    exact List.perm_singleton.mp found

/-- Without the members of another name, each field still stands once. -/
theorem GivesEach.without {name : String} (gives : GivesEach fields members) (new : name ∉ fields.map Prod.fst) :
    GivesEach fields (members.filter fun m => !decide (m.1 = some name)) := by
  refine ⟨fun m member => gives.named m (List.mem_filter.mp member).1, ?_⟩
  intro f member
  rw [List.filter_filter, ← gives.once f member]
  refine List.filter_congr ?_
  intro m _
  have ne : name ≠ f.1 := fun same => new (same ▸ List.mem_map_of_mem member)
  by_cases same : m.1 = some f.1
  · simpa [same] using Ne.symm ne
  · simp [same]

theorem GivesEach.gives (gives : GivesEach fields members) (nodup : (fields.map Prod.fst).Nodup) :
    Gives fields members := by
  induction fields generalizing members with
  | nil =>
    refine ⟨members, .refl _, ?_⟩
    intro m member
    obtain ⟨name, named⟩ := Option.isSome_iff_exists.mp (gives.named m member)
    exact ⟨name, named, List.not_mem_nil⟩
  | cons f fields ih =>
    rw [List.map_cons, List.nodup_cons] at nodup
    have tail : GivesEach fields members := ⟨gives.named, fun g member => gives.once g (List.mem_cons_of_mem _ member)⟩
    obtain ⟨others, order, unknown⟩ := ih (tail.without nodup.1) nodup.2
    refine ⟨others, ?_, ?_⟩
    · have parts := List.filter_append_perm (fun m => decide (m.1 = some f.1)) members
      rw [gives.once f List.mem_cons_self] at parts
      exact parts.symm.trans (order.cons _)
    · intro m member
      obtain ⟨name, named, new⟩ := unknown m member
      have inside := order.mem_iff.mpr (List.mem_append_right _ member)
      have ne : name ≠ f.1 := by simpa [named] using (List.mem_filter.mp inside).2
      exact ⟨name, named, by simp [ne, new]⟩

theorem fields?_eq_some_iff {known : List String} (nodup : known.Nodup) {values : List Json}
    (length : known.length = values.length) {j : Json} :
    j.fields? known = some (values.map some) ↔
      (∃ members, j = .object members ∧ Gives (known.zip values) members) ∨ j = .array values := by
  have names : (known.zip values).map Prod.fst = known := List.map_fst_zip (Nat.le_of_eq length)
  have contents : (known.zip values).map (fun f => some f.2) = values.map some := by
    calc (known.zip values).map (fun f => some f.2)
        = ((known.zip values).map Prod.snd).map some := by rw [List.map_map]; rfl
      _ = values.map some := by rw [List.map_snd_zip (Nat.le_of_eq length.symm)]
  cases j with
  | object members =>
    have each : membersOf? ((known.zip values).map Prod.fst) members = some ((known.zip values).map fun f => some f.2) ↔
        GivesEach (known.zip values) members := membersOf?_eq_some_iff
    rw [names, contents] at each
    rw [fields?, each]
    simp only [object.injEq, exists_eq_left', reduceCtorEq, or_false]
    exact ⟨fun gives => gives.gives (names.symm ▸ nodup), fun gives => gives.each (names.symm ▸ nodup)⟩
  | array items =>
    simp only [fields?, Option.ite_none_right_eq_some, Option.some.injEq, reduceCtorEq, false_and, exists_false, false_or,
      array.injEq]
    constructor
    · rintro ⟨_, same⟩
      exact List.map_injective_iff.mpr (Option.some_injective _) same
    · rintro rfl
      exact ⟨length.symm, rfl⟩
  | _ => simp [fields?]

end Json

/-! ## Settings -/

theorem Format.ofName?_eq_some_iff {name : String} {format : Format} : ofName? name = some format ↔ name = format.name := by
  constructor
  · intro read
    unfold ofName? at read
    split at read <;> cases read <;> rfl
  · rintro rfl
    cases format <;> rfl

theorem Sink.ofName?_eq_some_iff {name : String} {sink : Sink} : ofName? name = some sink ↔ name = sink.name := by
  constructor
  · intro read
    unfold ofName? at read
    split at read <;> cases read <;> rfl
  · rintro rfl
    cases sink <;> rfl

namespace Settings

/-- The values of the fields, in their order: digits alone for both counts, and two names. -/
def HasValues (s : Settings) (values : List Json) : Prop :=
  ∃ window limit format sink, values = [window, limit, format, sink] ∧ window.Counts s.windowMs.toNat ∧
    limit.Counts s.maxPerWindow.toNat ∧ format.Names s.format.name ∧ sink.Names s.sink.name

/-- The value gives the settings: as an object that has each field once, or as an array of all values. -/
inductive Presents (s : Settings) : Json → Prop
  | object {values : List Json} {members : List (Option String × Json)} (has : s.HasValues values)
      (gives : Json.Gives (fieldNames.zip values) members) : Presents s (.object members)
  | array {values : List Json} (has : s.HasValues values) : Presents s (.array values)

variable {s : Settings} {j window limit format sink : Json}

/-- The counts that are read as a word, for words that stand for the numbers below a size. -/
theorem word_iff {Word : Type} {size : Nat} {ofNat : Nat → Word} {toNat : Word → Nat} (below : ∀ w, toNat w < size)
    (toNat_ofNat : ∀ n, n < size → toNat (ofNat n) = n) (ofNat_toNat : ∀ w, ofNat (toNat w) = w) {w : Word} :
    (∃ n, j.nat? (size - 1) = some n ∧ ofNat n = w) ↔ j.Counts (toNat w) := by
  constructor
  · rintro ⟨n, read, rfl⟩
    obtain ⟨counts, fits⟩ := Json.nat?_eq_some_iff.mp read
    have inside : n < size := Nat.lt_of_le_pred (Nat.zero_lt_of_lt (below (ofNat n))) fits
    rwa [toNat_ofNat n inside]
  · intro counts
    exact ⟨toNat w, Json.nat?_eq_some_iff.mpr ⟨counts, Nat.le_sub_one_of_lt (below w)⟩, ofNat_toNat w⟩

theorem window_iff {w : UInt64} : (∃ n, j.nat? (UInt64.size - 1) = some n ∧ UInt64.ofNat n = w) ↔ j.Counts w.toNat :=
  word_iff UInt64.toNat_lt (fun _ => UInt64.toNat_ofNat_of_lt') (fun _ => UInt64.ofNat_toNat)

theorem limit_iff {w : UInt32} : (∃ n, j.nat? (UInt32.size - 1) = some n ∧ UInt32.ofNat n = w) ↔ j.Counts w.toNat :=
  word_iff UInt32.toNat_lt (fun _ => UInt32.toNat_ofNat_of_lt') (fun _ => UInt32.ofNat_toNat)

/-- What is decoded from the values of all fields. -/
theorem decoded_iff :
    (do return {
          windowMs := UInt64.ofNat (← window.nat? (UInt64.size - 1))
          maxPerWindow := UInt32.ofNat (← limit.nat? (UInt32.size - 1))
          format := ← Format.ofName? (← format.name?)
          sink := ← Sink.ofName? (← sink.name?) } : Option Settings) = some s ↔
      s.HasValues [window, limit, format, sink] := by
  simp only [Option.bind_eq_bind, Option.bind_eq_some_iff, Json.name?_eq_some_iff,
    Format.ofName?_eq_some_iff, Sink.ofName?_eq_some_iff, Option.pure_def, Option.some.injEq]
  constructor
  · rintro ⟨n, windowRead, m, limitRead, _, formatNamed, format', rfl, _, sinkNamed, sink', rfl, rfl⟩
    exact ⟨window, limit, format, sink, rfl, window_iff.mp ⟨n, windowRead, rfl⟩, limit_iff.mp ⟨m, limitRead, rfl⟩,
      formatNamed, sinkNamed⟩
  · rintro ⟨_, _, _, _, same, windowCounts, limitCounts, formatNamed, sinkNamed⟩
    obtain ⟨rfl, rfl, rfl, rfl⟩ : window = _ ∧ limit = _ ∧ format = _ ∧ sink = _ := by simpa using same
    obtain ⟨n, windowRead, windowIs⟩ := window_iff.mpr windowCounts
    obtain ⟨m, limitRead, limitIs⟩ := limit_iff.mpr limitCounts
    refine ⟨n, windowRead, m, limitRead, _, formatNamed, s.format, rfl, _, sinkNamed, s.sink, rfl, ?_⟩
    rw [windowIs, limitIs]

theorem presents_iff : s.Presents j ↔ ∃ values, s.HasValues values ∧ j.fields? fieldNames = some (values.map some) := by
  have fields : ∀ {values}, s.HasValues values → (j.fields? fieldNames = some (values.map some) ↔
      (∃ members, j = .object members ∧ Json.Gives (fieldNames.zip values) members) ∨ j = .array values) := by
    rintro values ⟨_, _, _, _, rfl, _⟩
    exact Json.fields?_eq_some_iff (by decide) rfl
  constructor
  · rintro (⟨has, gives⟩ | has)
    · exact ⟨_, has, (fields has).mpr (.inl ⟨_, rfl, gives⟩)⟩
    · exact ⟨_, has, (fields has).mpr (.inr rfl)⟩
  · rintro ⟨values, has, found⟩
    rcases (fields has).mp found with ⟨members, rfl, gives⟩ | rfl
    · exact .object has gives
    · exact .array has

theorem ofJson?_eq_some_iff : ofJson? j = some s ↔ s.Presents j := by
  rw [presents_iff]
  unfold ofJson?
  split
  · rename_i window limit format sink found
    rw [decoded_iff, found]
    constructor
    · exact fun has => ⟨_, has, rfl⟩
    · rintro ⟨values, has, same⟩
      have values_eq : [window, limit, format, sink] = values :=
        List.map_injective_iff.mpr (Option.some_injective _) (Option.some.inj same)
      exact values_eq ▸ has
  · rename_i other
    simp only [reduceCtorEq, false_iff]
    rintro ⟨_, ⟨window, limit, format, sink, rfl, _⟩, found⟩
    exact other window limit format sink found

/-- The order is turned around, another member stands among the fields, and the sink is given by an object. -/
example : ofJson? (.object [(some "sink", .object [(some "log", .null)]), (some "note", .array [.null]),
    (some "format", .ofString "text"), (some "throttle_max_per_window", .ofNat 5),
    (some "throttle_window_ms", .ofNat 0)]) = some ⟨0, 5, .text, .log⟩ := by decide

theorem presents_toJson (s : Settings) : s.Presents s.toJson := by
  have counts : ∀ n, (Json.ofNat n).Counts n := fun n =>
    ⟨_, rfl, Text.isDigits_toDigits n, Text.digitsValue_toDigits n⟩
  have has : s.HasValues [.ofNat s.windowMs.toNat, .ofNat s.maxPerWindow.toNat, .ofString s.format.name,
      .ofString s.sink.name] :=
    ⟨_, _, _, _, rfl, counts _, counts _, .inl rfl, .inl rfl⟩
  exact .object has ⟨[], .refl _, fun _ member => nomatch member⟩

theorem proper_toJson (s : Settings) : s.toJson.Proper := by
  refine Json.proper_ofMembers ?_
  simp only [List.forall_mem_cons, List.not_mem_nil, false_implies, implies_true, and_true]
  exact ⟨Json.proper_ofNat _, Json.proper_ofNat _, Json.proper_ofString _, Json.proper_ofString _⟩

/-- Settings are read back from both of their texts, and a text is read as settings exactly if it is a
    text of a JSON value that gives them: each field once and in any order, or all values in an array;
    counts as digits alone that stand for the very words of the settings. -/
theorem read_as_presented (s : Settings) :
    read? s.compact = some s ∧ read? s.toJson.prettyText = some s ∧
      ∀ text : String, read? text = some s ↔ ∃ j : Json, j.IsText text ∧ s.Presents j := by
  have presented : ∀ text : String, read? text = some s ↔ ∃ j : Json, j.IsText text ∧ s.Presents j := by
    intro text
    rw [read?, Option.bind_eq_bind, Option.bind_eq_some_iff]
    simp only [Json.read?_eq_some_iff, ofJson?_eq_some_iff]
  refine ⟨?_, ?_, presented⟩
  · exact (presented _).mpr
      ⟨s.toJson, Json.read?_eq_some_iff.mp (Json.read?_compactText s.proper_toJson), s.presents_toJson⟩
  · exact (presented _).mpr
      ⟨s.toJson, Json.read?_eq_some_iff.mp (Json.read?_prettyText s.proper_toJson), s.presents_toJson⟩

end Settings

end FaultSnapshot
