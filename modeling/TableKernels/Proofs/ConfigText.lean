import TableKernels.Codec.Config
import TableKernels.Proofs.Compiled.WellTyped
import TableKernels.Proofs.Json.Members
import TableKernels.Registry

/-!
# What the text of a configuration says

Of the text of an object only its set of members matters. Their order and the blanks around them do
not, a field that is not listed has its default, and the configuration that comes out is validated.
A name that comes twice or that no field has is refused, so nothing in the text is passed over.
-/

namespace TableKernels.Config

open Json Compiled

/-- A member of a configuration with its value. -/
inductive Member
  | globalConst (value : Binary64)
  | initialPages (value : UInt64)
  | maxPages (value : UInt64)
  | fibonacciCap (value : Option Int64)
  | sieveCap (value : Option Int64)

namespace Member

/-- The name of a member. -/
def name : Member → String
  | globalConst _ => "global_const"
  | initialPages _ => "initial_memory_pages"
  | maxPages _ => "max_memory_pages"
  | fibonacciCap _ => "max_fibonacci_n"
  | sieveCap _ => "max_sieve_limit"

/-- The configuration with the value of the member. -/
def set (config : Config) : Member → Config
  | globalConst value => { config with globalConst := value }
  | initialPages value => { config with initialPages := value }
  | maxPages value => { config with maxPages := value }
  | fibonacciCap value => { config with fibonacciCap := value }
  | sieveCap value => { config with sieveCap := value }

/-- A text that is read as the value of the member when it stands alone. -/
def IsValueText (text : List Char) : Member → Prop
  | globalConst value => Codec.float.parse (.ofList text) = .ok value
  | initialPages value | maxPages value =>
    (Codec.uint64 "u64").parse (.ofList text) = .ok value
  | fibonacciCap value | sieveCap value =>
    (Codec.optional .int64).parse (.ofList text) = .ok value

/-- A member of an object with the name and the value of a member of a configuration. -/
structure IsSpelledBy (member : Member) (text : MemberText) : Prop where
  named : text.IsNamed member.name
  reads : member.IsValueText text.value

end Member

/-- The default configuration with the values of some members. -/
def listing (members : List Member) : Config := members.foldl Member.set default

/-- All members of a configuration. -/
def members (config : Config) : List Member :=
  [.globalConst config.globalConst, .initialPages config.initialPages, .maxPages config.maxPages,
    .fibonacciCap config.fibonacciCap, .sieveCap config.sieveCap]

theorem mem_members_set (config : Config) (member other : Member) :
    other ∈ (member.set config).members ↔
      other = member ∨ (other ∈ config.members ∧ other.name ≠ member.name) := by
  cases member <;> cases other <;> simp [members, Member.set, Member.name]

/-- What is listed has its value, and what is not has its default. -/
theorem mem_members_listing {listed : List Member} (distinct : (listed.map Member.name).Nodup)
    (member : Member) : member ∈ (listing listed).members ↔
      member ∈ listed ∨ (member ∈ default.members ∧ member.name ∉ listed.map Member.name) := by
  rw [listing]
  generalize default = config
  induction listed generalizing config with
  | nil => simp
  | cons first listed hypothesis =>
    rw [List.map_cons, List.nodup_cons] at distinct
    rw [List.foldl_cons, hypothesis distinct.2, mem_members_set, List.map_cons, List.mem_cons,
      List.mem_cons, not_or]
    have fresh : member = first → member.name ∉ listed.map Member.name := by
      rintro rfl
      exact distinct.1
    tauto

/-- The names of all members. -/
def memberNames : List String :=
  ["global_const", "initial_memory_pages", "max_memory_pages", "max_fibonacci_n", "max_sieve_limit"]

/-! ## Slots -/

/-- The values of the members. -/
abbrev Values : Type := Binary64 × UInt64 × UInt64 × Option Int64 × Option Int64 × Unit

/-- The values of a configuration that were read. -/
abbrev Slots : Type := Option Binary64 × Option UInt64 × Option UInt64 × Option (Option Int64) ×
  Option (Option Int64) × Unit

/-- The fields by which configurations are read and written. -/
def fields : Fields Values Slots :=
  .field "global_const" .float (.defaulted Config.default.globalConst) <|
    .field "initial_memory_pages" (.uint64 "u64") (.defaulted Config.default.initialPages) <|
    .field "max_memory_pages" (.uint64 "u64") (.defaulted Config.default.maxPages) <|
    .field "max_fibonacci_n" (.optional .int64) (.defaulted none) <|
    .field "max_sieve_limit" (.optional .int64) (.defaulted none) .done

/-- The values of a configuration in the order of its fields. -/
def values (config : Config) : Values :=
  (config.globalConst, config.initialPages, config.maxPages, config.fibonacciCap, config.sieveCap,
    ())

theorem areLocal_fields : fields.AreLocal where
  distinct := by decide
  each := ⟨isLocal_float, isLocal_uint64 _, isLocal_uint64 _, isLocal_optional isLocal_int64,
    isLocal_optional isLocal_int64, trivial⟩

/-- The slot of a member with its value. -/
def Member.entry : Member → fields.Entry
  | globalConst value => ⟨.here, value⟩
  | initialPages value => ⟨.there .here, value⟩
  | maxPages value => ⟨.there (.there .here), value⟩
  | fibonacciCap value => ⟨.there (.there (.there .here)), value⟩
  | sieveCap value => ⟨.there (.there (.there (.there .here))), value⟩

theorem Member.entry_name (member : Member) : member.entry.name = member.name := by
  cases member <;> rfl

theorem Member.IsSpelledBy.entry {member : Member} {text : MemberText}
    (spelled : member.IsSpelledBy text) : member.entry.IsSpelledBy text where
  named := member.entry_name ▸ spelled.named
  reads := by
    have reads := spelled.reads
    cases member <;> exact reads

/-- What was read with defaults for the rest. -/
def complete (read : Slots) : Config :=
  ⟨read.1.getD default.globalConst, read.2.1.getD default.initialPages,
    read.2.2.1.getD default.maxPages, read.2.2.2.1.getD none, read.2.2.2.2.1.getD none⟩

theorem finish_fields (read : Slots) : fields.finish read = .ok (complete read).values := by
  obtain ⟨globalConst, initialPages, maxPages, fibonacciCap, sieveCap, _⟩ := read
  simp only [fields, Fields.finish, Presence.inObject?, Option.or_some]
  rfl

theorem complete_put (read : Slots) (member : Member) :
    complete (Fields.Entry.put read member.entry) = member.set (complete read) := by
  cases member <;> rfl

theorem complete_listing (members : List Member) :
    complete ((members.map Member.entry).foldl Fields.Entry.put fields.start) =
      listing members := by
  rw [List.foldl_map]
  exact (List.foldl_hom complete fun read member => (complete_put read member).symm).symm

/-! ## Texts -/

theorem parse_eq (text : String) : codec.parse text =
    ((Codec.record "KernelConfig" fields true).parse text).map fun values =>
      ⟨values.1, values.2.1, values.2.2.1, values.2.2.2.1, values.2.2.2.2.1⟩ :=
  Codec.parse_map _ _ _ text

section OfJson

variable {text : String} {config : Config}

theorem ofJson_of_parse (parsed : codec.parse text = .ok config) :
    ofJson text = (config.validate.mapError TextFault.invalid).map fun _ => config := by
  rw [ofJson, parsed]
  change (config.validate.mapError TextFault.invalid >>= fun _ => pure config) = _
  cases config.validate <;> rfl

theorem ofJson_of_error {fault : Fault}
    (refused : (Codec.record "KernelConfig" fields true).parse text = .error fault) :
    ofJson text = .error (.json fault) := by
  rw [ofJson, parse_eq, refused]
  rfl

theorem validate_of_ofJson (read : ofJson text = .ok config) : config.validate = .ok () := by
  obtain ⟨parsed, _, read⟩ := exists_of_bind_eq_ok read
  obtain ⟨_, checked, read⟩ := exists_of_bind_eq_ok read
  cases read
  cases valid : config.validate with
  | error fault =>
    rw [valid] at checked
    cases checked
  | ok _ => rfl

end OfJson

section Members

variable {members : List Member} {object : ObjectText}

theorem entries_spelled (spelled : List.Forall₂ Member.IsSpelledBy members object.members) :
    List.Forall₂ Fields.Entry.IsSpelledBy (members.map Member.entry) object.members := by
  rw [List.forall₂_map_left_iff]
  exact spelled.imp fun _ _ spelled => spelled.entry

theorem map_entry_name (members : List Member) :
    (members.map Member.entry).map Fields.Entry.name = members.map Member.name := by
  rw [List.map_map]
  exact List.map_congr_left fun member _ => member.entry_name

theorem parse_members (distinct : (members.map Member.name).Nodup) (laidOut : object.IsLaidOut)
    (spelled : List.Forall₂ Member.IsSpelledBy members object.members) :
    codec.parse (.ofList object.text) = .ok (listing members) := by
  have finished := finish_fields ((members.map Member.entry).foldl Fields.Entry.put fields.start)
  rw [complete_listing] at finished
  rw [parse_eq, Fields.parse_entries _ areLocal_fields laidOut (entries_spelled spelled)
    (by rwa [map_entry_name]) finished]
  rfl

theorem Member.set_comm {first second : Member} (other : first.name ≠ second.name)
    (config : Config) : second.set (first.set config) = first.set (second.set config) := by
  cases first <;> cases second <;> first | rfl | exact absurd rfl other

theorem listing_perm {others : List Member} (same : members.Perm others)
    (distinct : (members.map Member.name).Nodup) : listing members = listing others := by
  refine same.foldl_eq' (fun first inFirst second inSecond config => ?_) _
  by_cases named : first.name = second.name
  · rw [List.inj_on_of_nodup_map distinct inFirst inSecond named]
  · exact Member.set_comm named config

/-- The outcome of an object of members with different names. -/
theorem ofJson_members (distinct : (members.map Member.name).Nodup) (laidOut : object.IsLaidOut)
    (spelled : List.Forall₂ Member.IsSpelledBy members object.members) :
    ofJson (.ofList object.text) =
      ((listing members).validate.mapError TextFault.invalid).map fun _ => listing members :=
  ofJson_of_parse (parse_members distinct laidOut spelled)

theorem ofJson_cut (distinct : (members.map Member.name).Nodup) (laidOut : object.IsLaidOut)
    (spelled : List.Forall₂ Member.IsSpelledBy members object.members) {before word : List Char}
    {key : String} (blanks : IsBlanks before)
    (read : Codec.string.parse (.ofList word) = .ok key) (more : List Char) :
    (key ∈ members.map Member.name → ofJson (.ofList (object.cut before word more)) =
      .error (.json (.content (.duplicateField key)))) ∧
    (key ∉ memberNames → ofJson (.ofList (object.cut before word more)) =
      .error (.json (.content (.unknownField key memberNames)))) := by
  have named := map_entry_name members
  have cut {fault : Fault} (refused : ∀ text, fields.strictMember key
      ((members.map Member.entry).foldl Fields.Entry.put fields.start) text = .error fault) :
      ofJson (.ofList (object.cut before word more)) = .error (.json fault) :=
    ofJson_of_error (Fields.parse_cut _ areLocal_fields laidOut (entries_spelled spelled)
      (by rwa [named]) blanks read more refused)
  constructor
  · intro again
    rw [← named] at again
    exact cut (Fields.strictMember_taken areLocal_fields (Fields.mem_taken_foldl.mpr (.inl again)))
  · intro unknown
    exact cut (Fields.strictMember_unknown unknown)

end Members

/--
What the text of a configuration comes to depends on the set of its members alone. Names that come
twice or are unknown are refused, and what is read describes a module.
-/
theorem ofJson_depends_on_members :
    -- An object of members with different names is the configuration with these values.
    (∀ listed : List Member, (listed.map Member.name).Nodup →
      (∀ member, member ∈ (listing listed).members ↔ member ∈ listed ∨
        (member ∈ default.members ∧ member.name ∉ listed.map Member.name)) ∧
      ∀ object : ObjectText, object.IsLaidOut →
        List.Forall₂ Member.IsSpelledBy listed object.members →
          ((listing listed).validate = .ok () →
            ofJson (.ofList object.text) = .ok (listing listed)) ∧
          ∀ fault, (listing listed).validate = .error fault →
            ofJson (.ofList object.text) = .error (.invalid fault)) ∧
    -- It is the same in any order and layout.
    (∀ listed others : List Member, listed.Perm others → (listed.map Member.name).Nodup →
      ∀ object object' : ObjectText, object.IsLaidOut → object'.IsLaidOut →
        List.Forall₂ Member.IsSpelledBy listed object.members →
        List.Forall₂ Member.IsSpelledBy others object'.members →
          ofJson (.ofList object.text) = ofJson (.ofList object'.text)) ∧
    -- A name too many is refused wherever it stands, whatever the values are.
    (∀ (keys : List String) (object : ObjectText), object.IsLaidOut →
      List.Forall₂ (fun key member => MemberText.IsNamed member key) keys object.members →
      (∀ member ∈ object.members, IsValue member.value) →
      ¬ (keys.Nodup ∧ ∀ key ∈ keys, key ∈ memberNames) →
        ∃ fault, ofJson (.ofList object.text) = .error (.json fault)) ∧
    -- Behind members that are read it is refused at once, and nothing behind it is looked at.
    (∀ listed : List Member, (listed.map Member.name).Nodup →
      ∀ object : ObjectText, object.IsLaidOut →
        List.Forall₂ Member.IsSpelledBy listed object.members →
        ∀ before word more key, IsBlanks before → Codec.string.parse (.ofList word) = .ok key →
          (key ∈ listed.map Member.name → ofJson (.ofList (object.cut before word more)) =
            .error (.json (.content (.duplicateField key)))) ∧
          (key ∉ memberNames → ofJson (.ofList (object.cut before word more)) =
            .error (.json (.content (.unknownField key memberNames))))) ∧
    -- Whatever is read, from any text at all, can be compiled and run.
    ∀ text config, ofJson text = .ok config → config.validate = .ok () ∧
      (∃ bytes, compile config = .ok bytes) ∧
        ∃ registry, Registry.ofConfig config = .ok registry := by
  refine ⟨?_, ?_, ?_, ?_, ?_⟩
  · intro listed distinct
    refine ⟨mem_members_listing distinct, fun object laidOut spelled => ?_⟩
    have outcome := ofJson_members distinct laidOut spelled
    constructor
    · intro valid
      rw [outcome, valid]
      rfl
    · intro fault invalid
      rw [outcome, invalid]
      rfl
  · intro listed others same distinct object object' laidOut laidOut' spelled spelled'
    have distinct' : (others.map Member.name).Nodup :=
      (same.map Member.name).nodup_iff.mp distinct
    rw [ofJson_members distinct laidOut spelled, ofJson_members distinct' laidOut' spelled',
      listing_perm same distinct]
  · intro keys object laidOut named values excess
    obtain ⟨fault, refused⟩ :=
      Fields.parse_excess "KernelConfig" areLocal_fields laidOut named values excess
    exact ⟨fault, ofJson_of_error refused⟩
  · intro listed distinct object laidOut spelled before word more key blanks read
    exact ofJson_cut distinct laidOut spelled blanks read more
  · intro text config read
    have valid := validate_of_ofJson read
    refine ⟨valid, ⟨_, compile_eq_ok.mpr ⟨validate_eq_ok.mp valid, rfl⟩⟩, ?_⟩
    exact ⟨_, by rw [Registry.ofConfig, valid]; rfl⟩

/--
With blanks and an escaped name, and without them in the other order, the text says the same. A
first value of the wrong type does not hide that its name comes twice, and an unknown name is
refused however the text goes on.
-/
theorem ofJson_depends_on_members_scattered :
    ofJson " \x7b  \"max_sieve\\u005flimit\" : null , \"initial_memory_pages\" : 2 \x7d " =
      .ok { default with initialPages := 2 } ∧
    ofJson " \x7b  \"max_sieve\\u005flimit\" : null , \"initial_memory_pages\" : 2 \x7d " =
      ofJson "\x7b\"initial_memory_pages\":2,\"max_sieve_limit\":null\x7d" ∧
    ofJson "\x7b\"initial_memory_pages\":0\x7d" = .error (.invalid .noInitialPages) ∧
    (∃ fault, ofJson "\x7b\"max_memory_pages\":\"many\",\"max_memory_pages\":4\x7d" =
      .error (.json fault)) ∧
    ofJson "\x7b\"initial_memory_pages\":2,\"pages\"?!" =
      .error (.json (.content (.unknownField "pages" memberNames))) ∧
    ∃ bytes, compile { default with initialPages := 2 } = .ok bytes := by
  obtain ⟨outcome, order, excess, cut, sound⟩ := ofJson_depends_on_members
  have quoted (name : String) := parse_of_takes (takes_string name) (.ofToken rfl)
  have compact := ObjectText.isLaidOut_spaced isBlanks_nil
  have tight (name : String) (value : List Char) :=
    MemberText.isNamed_spaced isBlanks_nil (quoted name) value
  have two : (Member.initialPages 2).IsValueText ['2'] :=
    (by decide : (Codec.uint64 "u64").parse (.ofList ['2']) = .ok 2)
  have zero : (Member.initialPages 0).IsValueText ['0'] :=
    (by decide : (Codec.uint64 "u64").parse (.ofList ['0']) = .ok 0)
  have null : (Member.sieveCap none).IsValueText ['n', 'u', 'l', 'l'] :=
    (by decide : (Codec.optional .int64).parse (.ofList ['n', 'u', 'l', 'l']) = .ok none)
  have many : IsValue (Json.quoted "many") := isValue_of_scalar rfl isBlanks_nil
  have four : IsValue ['4'] := isValue_of_scalar rfl isBlanks_nil
  have escaped : Codec.string.parse (.ofList "\"max_sieve\\u005flimit\"".toList) =
      .ok "max_sieve_limit" := by decide
  have scattered : List.Forall₂ Member.IsSpelledBy [.sieveCap none, .initialPages 2]
      [.spaced [' '] "\"max_sieve\\u005flimit\"".toList ['n', 'u', 'l', 'l'],
        .spaced [' '] (Json.quoted "initial_memory_pages") ['2']] :=
    .cons ⟨MemberText.isNamed_spaced isBlanks_space escaped _, null⟩
      (.cons ⟨MemberText.isNamed_spaced isBlanks_space (quoted _) _, two⟩ .nil)
  have valid := ((outcome _ (by decide)).2 (.spaced [' '] _)
    (ObjectText.isLaidOut_spaced isBlanks_space _) scattered).1 (by decide)
  have same := order _ [.initialPages 2, .sieveCap none] (.swap ..) (by decide) (.spaced [' '] _)
    (.spaced [] _) (ObjectText.isLaidOut_spaced isBlanks_space _) (compact _) scattered
    (.cons ⟨tight _ ['2'], two⟩ (.cons ⟨tight _ ['n', 'u', 'l', 'l'], null⟩ .nil))
  have invalid := ((outcome [.initialPages 0] (by decide)).2 (.spaced [] _) (compact _)
    (.cons ⟨tight _ ['0'], zero⟩ .nil)).2 .noInitialPages (by decide)
  have twice := excess _ (.spaced [] _) (compact _)
    (.cons (tight "max_memory_pages" (Json.quoted "many"))
      (.cons (tight "max_memory_pages" ['4']) .nil))
    (List.forall_mem_cons.mpr ⟨many, List.forall_mem_singleton.mpr four⟩) (by decide)
  have unknown := (cut [.initialPages 2] (by decide) (.spaced [] _) (compact _)
    (.cons ⟨tight _ ['2'], two⟩ .nil) [] (Json.quoted "pages") ['?', '!'] "pages" isBlanks_nil
    (quoted _)).2 (by decide)
  exact ⟨valid, same, invalid, twice, unknown, (sound _ _ valid).2.1⟩

end TableKernels.Config
