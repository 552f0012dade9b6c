import TableKernels.Proofs.Json.Locality
import TableKernels.Proofs.Json.Slots

/-!
# Members of an object in any order and layout

A strict record goes through the members of an object one by one. Those that come for the first time
go into their slots, each as its value is read alone; a name that comes again and a name that no
field has end the reading at once.
-/

namespace TableKernels.Json

variable {All Some α σ : Type} {fields : Fields All Some} {key : String} {more gap : List Char}

/-! ## Texts -/

/-- The text of a member of an object, with what stands around its name and its value. -/
structure MemberText where
  before : List Char
  name : List Char
  middle : List Char
  after : List Char
  value : List Char
  behind : List Char

namespace MemberText

/-- The text of a member. -/
def text (member : MemberText) : List Char :=
  member.before ++ (member.name ++ (member.middle ++ ':' ::
    (member.after ++ (member.value ++ member.behind))))

/-- A member of a name, with blanks around the name and the value. -/
structure IsNamed (member : MemberText) (key : String) : Prop where
  before : IsBlanks member.before
  middle : IsBlanks member.middle
  after : IsBlanks member.after
  behind : IsBlanks member.behind
  name : Codec.string.parse (.ofList member.name) = .ok key

/-- A member with the same gap at every place. -/
def spaced (gap name value : List Char) : MemberText := ⟨gap, name, gap, gap, value, gap⟩

theorem isNamed_spaced {name : List Char} (blanks : IsBlanks gap)
    (read : Codec.string.parse (.ofList name) = .ok key) (value : List Char) :
    (spaced gap name value).IsNamed key :=
  ⟨blanks, blanks, blanks, blanks, read⟩

end MemberText

/-- The text of an object, with what stands around its members. -/
structure ObjectText where
  lead : List Char
  inner : List Char
  members : List MemberText
  trail : List Char

namespace ObjectText

/-- The text of an object. -/
def text (object : ObjectText) : List Char :=
  object.lead ++ '\x7b' :: (object.inner ++
    (List.intercalate [','] (object.members.map MemberText.text) ++ '\x7d' :: object.trail))

/-- A text that goes on with one more name instead of the end, and with anything behind that. -/
def cut (object : ObjectText) (before name more : List Char) : List Char :=
  object.lead ++ '\x7b' :: (object.inner ++
    List.intercalate [','] (object.members.map MemberText.text ++ [before ++ (name ++ more)]))

/-- Nothing but blanks stands around the members. -/
structure IsLaidOut (object : ObjectText) : Prop where
  lead : IsBlanks object.lead
  inner : IsBlanks object.inner
  trail : IsBlanks object.trail

/-- An object with the same gap at every place. -/
def spaced (gap : List Char) (members : List MemberText) : ObjectText := ⟨gap, gap, members, gap⟩

theorem isLaidOut_spaced (blanks : IsBlanks gap) (members : List MemberText) :
    (spaced gap members).IsLaidOut :=
  ⟨blanks, blanks, blanks⟩

end ObjectText

/-- What stands between a text and those before it, if it is not the first. -/
def comma (first : Bool) : List Char := if first then [] else [',']

/-- Texts one after another, the first of all or not. -/
def separated : Bool → List (List Char) → List Char
  | _, [] => []
  | first, text :: texts => comma first ++ (text ++ separated false texts)

theorem intercalate_comma (texts : List (List Char)) :
    List.intercalate [','] texts = separated true texts := by
  induction texts with
  | nil => rfl
  | cons text texts hypothesis =>
    cases texts with
    | nil => rfl
    | cons next texts =>
      rw [List.intercalate, List.intersperse_cons_cons, List.flatten_cons, List.flatten_cons,
        ← List.intercalate, hypothesis]
      rfl

theorem follows_separated (texts : List (List Char)) (follows : Follows more) :
    Follows (separated false texts ++ more) := by
  cases texts with
  | nil => exact follows
  | cons text texts => exact follows_cons (by decide)

/-! ## Names -/

theorem exists_quoted {name : List Char} (read : Codec.string.parse (.ofList name) = .ok key) :
    ∃ lead body trail, name = lead ++ quote :: body ∧ IsBlanks lead ∧ IsBlanks trail ∧
      readQuoted body = .ok (key, trail) := by
  obtain ⟨trail, blanks, read⟩ := Reader.run_eq_ok.mp read
  change Reader.stringFor "a string" name = _ at read
  cases solid : skipBlanks name with
  | nil =>
    rw [Reader.stringFor, solid] at read
    cases read
  | cons first body =>
    simp only [Reader.stringFor, solid] at read
    split at read
    · next opens =>
      refine ⟨name.takeWhile isBlank, body, trail, ?_, fun _ => List.mem_takeWhile_imp, blanks,
        read⟩
      rw [← opens, ← solid, skipBlanks, List.takeWhile_append_dropWhile]
    · obtain ⟨fault, refused⟩ := mismatch_refuses "a string" (first :: body)
      cases refused.symm.trans read

/-- The next name, whatever stands behind it. -/
theorem nextName_named (first : Bool) {before name : List Char} (blanks : IsBlanks gap)
    (lead : IsBlanks before) (read : Codec.string.parse (.ofList name) = .ok key)
    (more : List Char) : ∃ trail, IsBlanks trail ∧
      Reader.nextName first (gap ++ (comma first ++ (before ++ (name ++ more)))) =
        .ok (some key, trail ++ more) := by
  obtain ⟨inner, body, trail, rfl, inside, trailing, read⟩ := exists_quoted read
  have extended := readQuoted_extend more read
  have blanks' := lead.append inside
  refine ⟨trail, trailing, ?_⟩
  rw [List.append_assoc inner, List.cons_append, ← List.append_assoc before]
  cases first with
  | true =>
    rw [comma, if_pos rfl, List.nil_append, ← List.append_assoc gap]
    exact nextName_first (blanks.append blanks') extended
  | false =>
    rw [comma, if_neg Bool.false_ne_true, List.singleton_append]
    exact nextName_later blanks blanks' extended

/-! ## One member -/

theorem read_colon {reader : Reader α} {middle text : List Char} (blanks : IsBlanks middle)
    (f : α → σ) : (do Reader.colon; return f (← reader) : Reader σ) (middle ++ ':' :: text) =
      (reader text).map fun (value, rest) => (f value, rest) := by
  refine (Reader.bind_of_ok (colon_passed blanks text)).trans ?_
  change Reader.bind reader _ _ = _
  rw [Reader.bind]
  cases reader text <;> rfl

theorem nextName_member (first : Bool) {member : MemberText} (texts : List (List Char))
    (blanks : IsBlanks gap) (named : member.IsNamed key) (more : List Char) :
    ∃ trail, IsBlanks trail ∧
      Reader.nextName first (gap ++ (separated first (member.text :: texts) ++ more)) =
        .ok (some key, trail ++ (member.middle ++ ':' :: (member.after ++ (member.value ++
          (member.behind ++ (separated false texts ++ more)))))) := by
  simp only [separated, MemberText.text, List.append_assoc, List.cons_append]
  exact nextName_named first blanks named.before named.name _

namespace Fields

/-- How a strict record reads the member of a name. -/
def strictMember (fields : Fields All Some) (key : String) (read : Some) : Reader Some :=
  match fields.member? key read with
  | some reader => reader
  | none => Reader.complain (.unknownField key fields.names)

/-- Whether every field is read from one token. -/
def EachLocal {All Some : Type} : Fields All Some → Prop
  | done => True
  | field _ codec _ rest => codec.read.IsLocal ∧ rest.EachLocal

theorem EachLocal.here (each : fields.EachLocal) (slot : Slot fields α) :
    slot.codec.read.IsLocal := by
  induction slot with
  | here => exact each.1
  | there slot hypothesis => exact hypothesis each.2

/-- Fields of one token each, with names of their own. -/
structure AreLocal (fields : Fields All Some) : Prop where
  distinct : fields.names.Nodup
  each : fields.EachLocal

/-- Names of fields whose slots are free, each once. -/
def Admits (fields : Fields All Some) (read : Some) (keys : List String) : Prop :=
  keys.Nodup ∧ ∀ key ∈ keys, key ∈ fields.names ∧ key ∉ fields.taken read

variable {read : Some} {keys : List String}

theorem admits_start : fields.Admits fields.start keys ↔
    keys.Nodup ∧ ∀ key ∈ keys, key ∈ fields.names := by
  simp only [Admits, taken_start, List.not_mem_nil, not_false_eq_true, and_true]

theorem admits_cons (slot : Slot fields α) (value : α) (free : slot.name ∉ fields.taken read) :
    fields.Admits read (slot.name :: keys) ↔ fields.Admits (slot.put value read) keys := by
  simp only [Admits, List.nodup_cons, List.forall_mem_cons, slot.mem_taken_put, not_or]
  constructor
  · rintro ⟨⟨fresh, distinct⟩, _, known⟩
    refine ⟨distinct, fun key mem => ⟨(known key mem).1, ?_, (known key mem).2⟩⟩
    rintro rfl
    exact fresh mem
  · rintro ⟨distinct, known⟩
    refine ⟨⟨fun mem => (known _ mem).2.1 rfl, distinct⟩, ⟨slot.mem_names, free⟩, ?_⟩
    exact fun key mem => ⟨(known key mem).1, (known key mem).2.2⟩

theorem strictMember_free {member : MemberText} {slot : Slot fields α}
    (here : fields.AreLocal) (free : slot.name ∉ fields.taken read)
    (named : member.IsNamed slot.name) {trail : List Char} (trailing : IsBlanks trail)
    (text : List Char) :
    fields.strictMember slot.name read (trail ++ (member.middle ++ ':' :: (member.after ++ text))) =
      (slot.codec.read text).map fun (value, rest) => (slot.put value read, rest) := by
  rw [strictMember, member?_free slot here.distinct free, ← List.append_assoc]
  refine (read_colon (trailing.append named.middle) _).trans ?_
  rw [(here.each.here slot).lead _ _ named.after]

theorem strictMember_put {member : MemberText} {slot : Slot fields α} {value : α}
    (here : fields.AreLocal) (free : slot.name ∉ fields.taken read)
    (named : member.IsNamed slot.name)
    (reads : slot.codec.parse (.ofList member.value) = .ok value) {trail : List Char}
    (trailing : IsBlanks trail) (follows : Follows more) : ∃ gap, IsBlanks gap ∧
      fields.strictMember slot.name read (trail ++ (member.middle ++ ':' ::
        (member.after ++ (member.value ++ (member.behind ++ more))))) =
          .ok (slot.put value read, gap ++ more) := by
  obtain ⟨gap, blanks, taken⟩ := Reader.run_eq_ok.mp reads
  refine ⟨gap ++ member.behind, blanks.append named.behind, ?_⟩
  have behind := (here.each.here slot).extend _ (named.behind.follows follows) taken
  rw [strictMember_free here free named trailing, behind, List.append_assoc]
  rfl

/-- A value that the field does not take ends the reading. -/
theorem strictMember_refused {member : MemberText} {slot : Slot fields α}
    (here : fields.AreLocal) (free : slot.name ∉ fields.taken read)
    (named : member.IsNamed slot.name)
    (refuses : ∀ more, Follows more → ∃ fault,
      slot.codec.read (member.value ++ more) = .error fault) {trail : List Char}
    (trailing : IsBlanks trail) (follows : Follows more) : ∃ fault,
      fields.strictMember slot.name read (trail ++ (member.middle ++ ':' ::
        (member.after ++ (member.value ++ (member.behind ++ more))))) = .error fault := by
  obtain ⟨fault, refused⟩ := refuses _ (named.behind.follows follows)
  refine ⟨fault, ?_⟩
  rw [strictMember_free here free named trailing, refused]
  rfl

theorem strictMember_taken (here : fields.AreLocal) (again : key ∈ fields.taken read)
    (text : List Char) :
    fields.strictMember key read text = .error (.content (.duplicateField key)) := by
  rw [strictMember, member?_taken here.distinct again]
  rfl

theorem strictMember_unknown (unknown : key ∉ fields.names) (text : List Char) :
    fields.strictMember key read text = .error (.content (.unknownField key fields.names)) := by
  rw [strictMember, member?_unknown unknown]
  rfl

/-! ## Members that are put into their slots -/

/-- A value for one of the fields. -/
structure Entry (fields : Fields All Some) : Type 1 where
  {α : Type}
  slot : Slot fields α
  value : α

namespace Entry

/-- The name of the field of an entry. -/
def name (entry : fields.Entry) : String := entry.slot.name

/-- What is known of a record after one more entry. -/
def put (read : Some) (entry : fields.Entry) : Some := entry.slot.put entry.value read

/-- A member with the name of the entry, whose value alone is read as that of the entry. -/
structure IsSpelledBy (entry : fields.Entry) (member : MemberText) : Prop where
  named : member.IsNamed entry.name
  reads : entry.slot.codec.parse (.ofList member.value) = .ok entry.value

end Entry

/-- Members go into their slots one after another, whatever comes behind them. -/
theorem membersFrom_entries (here : fields.AreLocal) (first : Bool) {entries : List fields.Entry}
    {members : List MemberText} (spelled : List.Forall₂ Entry.IsSpelledBy entries members)
    (admits : fields.Admits read (entries.map Entry.name)) (texts : List (List Char))
    (follows : Follows more) (blanks : IsBlanks gap) (fuel : ℕ) :
    ∃ gap', IsBlanks gap' ∧
      Reader.membersFrom fields.strictMember (fuel + entries.length) first read
          (gap ++ (separated first (members.map MemberText.text ++ texts) ++ more)) =
        Reader.membersFrom fields.strictMember fuel (first && entries.isEmpty)
          (entries.foldl Entry.put read)
          (gap' ++ (separated (first && entries.isEmpty) texts ++ more)) := by
  induction spelled generalizing first read gap with
  | nil => exact ⟨gap, blanks, by rw [List.isEmpty_nil, Bool.and_true]; rfl⟩
  | @cons entry member entries members spells _ hypothesis =>
    have free : entry.slot.name ∉ fields.taken read := (admits.2 _ (List.mem_cons_self ..)).2
    obtain ⟨trail, trailing, next⟩ :=
      nextName_member first (members.map MemberText.text ++ texts) blanks spells.named more
    obtain ⟨gap', blanks', put⟩ := strictMember_put here free spells.named spells.reads trailing
      (follows_separated (members.map MemberText.text ++ texts) follows)
    obtain ⟨gap'', blanks'', others⟩ :=
      hypothesis false ((admits_cons _ entry.value free).mp admits) blanks'
    refine ⟨gap'', blanks'', ?_⟩
    rw [List.isEmpty_cons, Bool.and_false]
    rw [Bool.false_and] at others
    exact (membersFrom_named _ _ next _).trans ((Reader.bind_of_ok put).trans others)

/-- Members whose names are not all free and different are refused, whatever their values are. -/
theorem membersFrom_refused (here : fields.AreLocal) (first : Bool) {keys : List String}
    {members : List MemberText}
    (named : List.Forall₂ (fun key member => MemberText.IsNamed member key) keys members)
    (values : ∀ member ∈ members, IsValue member.value) (excess : ¬ fields.Admits read keys)
    (follows : Follows more) (blanks : IsBlanks gap) {fuel : ℕ} (enough : members.length ≤ fuel) :
    ∃ fault, Reader.membersFrom fields.strictMember fuel first read
      (gap ++ (separated first (members.map MemberText.text) ++ more)) = .error fault := by
  induction named generalizing first read gap fuel with
  | nil => exact absurd ⟨List.nodup_nil, nofun⟩ excess
  | @cons key member keys members one _ hypothesis =>
    obtain ⟨fuel, rfl⟩ := Nat.exists_eq_add_of_le' (Nat.one_le_of_lt enough)
    obtain ⟨trail, trailing, next⟩ :=
      nextName_member first (members.map MemberText.text) blanks one more
    have next := membersFrom_named fields.strictMember read next fuel
    -- A name that is not free ends the reading. A free one goes on only with a value that is
    -- read, and then the names that are left are not admitted.
    by_cases known : key ∈ fields.names
    · by_cases again : key ∈ fields.taken read
      · exact ⟨_, next.trans (Reader.bind_of_error (strictMember_taken here again _))⟩
      · obtain ⟨α, slot, rfl⟩ := exists_slot known
        have follows' := follows_separated (members.map MemberText.text) follows
        rcases (here.each.here slot).whole _ (values member (List.mem_cons_self ..)) with
          ⟨value, rest, blank, read⟩ | refuses
        · have reads := Reader.run_eq_ok.mpr ⟨rest, blank, read⟩
          obtain ⟨gap', blanks', put⟩ := strictMember_put here again one reads trailing follows'
          obtain ⟨fault, refused⟩ := hypothesis false
            (fun member mem => values member (List.mem_cons_of_mem _ mem))
            (fun admits => excess ((admits_cons slot value again).mpr admits)) blanks'
            (Nat.le_of_succ_le_succ enough)
          exact ⟨fault, next.trans ((Reader.bind_of_ok put).trans refused)⟩
        · obtain ⟨fault, refused⟩ := strictMember_refused here again one refuses trailing follows'
          exact ⟨fault, next.trans (Reader.bind_of_error refused)⟩
    · exact ⟨_, next.trans (Reader.bind_of_error (strictMember_unknown known _))⟩

/-! ## Objects -/

variable {lead : List Char}

theorem length_le_separated (first : Bool) (members : List MemberText) (texts : List (List Char)) :
    members.length ≤ (separated first (members.map MemberText.text ++ texts)).length := by
  induction members generalizing first with
  | nil => exact Nat.zero_le _
  | cons member members hypothesis =>
    have others := hypothesis false
    simp only [List.map_cons, List.cons_append, separated, MemberText.text, List.length_append,
      List.length_cons] at others ⊢
    omega

/-- The record of all that was read, up to the closing brace. -/
def close (fields : Fields All Some) (read : Some) : Reader All :=
  match fields.finish read with
  | .error complaint => Reader.complain complaint
  | .ok all => do
    Reader.closeObject
    return all

theorem read_brace (name : String) (blanks : IsBlanks lead) (text : List Char) :
    (Codec.record name fields true).read (lead ++ '\x7b' :: text) =
      Reader.bind (Reader.membersFrom fields.strictMember (text.length + 1) true fields.start)
        fields.close text := by
  change readRecord name fields true _ = _
  rw [readRecord, skipBlanks_lead blanks (by decide)]
  rfl

theorem parse_of_error {codec : Codec α} {text : List Char} {fault : Fault}
    (refused : codec.read text = .error fault) :
    codec.parse (.ofList text) = .error fault := by
  rw [Codec.parse, Reader.run, String.toList_ofList, refused]
  rfl

variable {entries : List fields.Entry} {object : ObjectText}

/-- Members of different names are put into their slots before anything behind them is read. -/
theorem read_entries (name : String) (here : fields.AreLocal) (laidOut : object.IsLaidOut)
    (spelled : List.Forall₂ Entry.IsSpelledBy entries object.members)
    (distinct : (entries.map Entry.name).Nodup) (texts : List (List Char))
    (follows : Follows more) : ∃ fuel gap, IsBlanks gap ∧
      (Codec.record name fields true).read (object.lead ++ '\x7b' :: (object.inner ++
          (List.intercalate [','] (object.members.map MemberText.text ++ texts) ++ more))) =
        Reader.bind (Reader.membersFrom fields.strictMember (fuel + 1) entries.isEmpty
            (entries.foldl Entry.put fields.start)) fields.close
          (gap ++ (separated entries.isEmpty texts ++ more)) := by
  have admits : fields.Admits fields.start (entries.map Entry.name) := by
    refine admits_start.mpr ⟨distinct, fun key mem => ?_⟩
    obtain ⟨entry, _, rfl⟩ := List.mem_map.mp mem
    exact entry.slot.mem_names
  rw [read_brace name laidOut.lead, intercalate_comma]
  -- Every member takes some text, so there are enough steps for all of them and one more.
  have long : entries.length ≤ (object.inner ++
      (separated true (object.members.map MemberText.text ++ texts) ++ more)).length := by
    have parts := length_le_separated true object.members texts
    rw [spelled.length_eq, List.length_append, List.length_append]
    omega
  obtain ⟨fuel, enough⟩ := Nat.exists_eq_add_of_le long
  obtain ⟨gap, blanks, run⟩ :=
    membersFrom_entries here true spelled admits texts follows laidOut.inner (fuel + 1)
  rw [Bool.true_and] at run
  refine ⟨fuel, gap, blanks, ?_⟩
  rw [enough, Nat.add_comm entries.length, Nat.add_right_comm, Reader.bind, run, Reader.bind]

/-- An object of members with different names, in whatever order and layout they come. -/
theorem parse_entries (name : String) (here : fields.AreLocal) (laidOut : object.IsLaidOut)
    (spelled : List.Forall₂ Entry.IsSpelledBy entries object.members)
    (distinct : (entries.map Entry.name).Nodup) {all : All}
    (finished : fields.finish (entries.foldl Entry.put fields.start) = .ok all) :
    (Codec.record name fields true).parse (.ofList object.text) = .ok all := by
  have follows : Follows ('\x7d' :: object.trail) := follows_cons (by decide)
  obtain ⟨fuel, gap, blanks, read⟩ :=
    read_entries name here laidOut spelled distinct [] follows
  have closed : Reader.membersFrom fields.strictMember (fuel + 1) entries.isEmpty
      (entries.foldl Entry.put fields.start) (gap ++ '\x7d' :: object.trail) =
        .ok (entries.foldl Entry.put fields.start, '\x7d' :: object.trail) :=
    Reader.bind_of_ok (nextName_done entries.isEmpty blanks)
  refine Reader.run_eq_ok.mpr ⟨object.trail, laidOut.trail, ?_⟩
  rw [List.append_nil] at read
  refine read.trans ((Reader.bind_of_ok closed).trans ?_)
  rw [close, finished]
  rfl

/-- A name that no member may have any more ends the reading, whatever stands behind it. -/
theorem parse_cut (name : String) (here : fields.AreLocal) (laidOut : object.IsLaidOut)
    (spelled : List.Forall₂ Entry.IsSpelledBy entries object.members)
    (distinct : (entries.map Entry.name).Nodup) {before word : List Char}
    (blanks : IsBlanks before) (read : Codec.string.parse (.ofList word) = .ok key)
    (more : List Char) {fault : Fault}
    (refused : ∀ text,
      fields.strictMember key (entries.foldl Entry.put fields.start) text = .error fault) :
    (Codec.record name fields true).parse (.ofList (object.cut before word more)) =
      .error fault := by
  obtain ⟨fuel, gap, blank, run⟩ :=
    read_entries name here laidOut spelled distinct [before ++ (word ++ more)] follows_nil
  obtain ⟨trail, _, next⟩ := nextName_named entries.isEmpty blank blanks read more
  rw [List.append_nil] at run
  refine parse_of_error (run.trans (Reader.bind_of_error ?_))
  simp only [separated, List.append_nil]
  exact (membersFrom_named _ _ next _).trans (Reader.bind_of_error (refused _))

/-- The names of the members that were put into their slots are taken. -/
theorem mem_taken_foldl : key ∈ fields.taken (entries.foldl Entry.put read) ↔
    key ∈ entries.map Entry.name ∨ key ∈ fields.taken read := by
  induction entries generalizing read with
  | nil => simp only [List.foldl_nil, List.map_nil, List.not_mem_nil, false_or]
  | cons entry entries hypothesis =>
    rw [List.foldl_cons, hypothesis, List.map_cons, List.mem_cons, Entry.put,
      entry.slot.mem_taken_put, or_left_comm, or_assoc]
    rfl

/-- An object in which a name comes twice, or one that no field has, whatever the values are. -/
theorem parse_excess (name : String) (here : fields.AreLocal) (laidOut : object.IsLaidOut)
    (named : List.Forall₂ (fun key member => MemberText.IsNamed member key) keys object.members)
    (values : ∀ member ∈ object.members, IsValue member.value)
    (excess : ¬ (keys.Nodup ∧ ∀ key ∈ keys, key ∈ fields.names)) :
    ∃ fault, (Codec.record name fields true).parse (.ofList object.text) = .error fault := by
  have follows : Follows ('\x7d' :: object.trail) := follows_cons (by decide)
  have long : object.members.length ≤ (object.inner ++
      (separated true (object.members.map MemberText.text) ++ '\x7d' :: object.trail)).length +
        1 := by
    have parts := length_le_separated true object.members []
    rw [List.append_nil] at parts
    rw [List.length_append, List.length_append]
    omega
  obtain ⟨fault, refused⟩ := membersFrom_refused here true named values
    (fun admits => excess (admits_start.mp admits)) follows laidOut.inner long
  refine ⟨fault, parse_of_error ?_⟩
  rw [ObjectText.text, read_brace name laidOut.lead, intercalate_comma]
  exact Reader.bind_of_error refused

end Fields

end TableKernels.Json
