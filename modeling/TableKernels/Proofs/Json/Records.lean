import TableKernels.Proofs.Json.Values

/-!
# Reading lists and records back

A list is taken for its items one after another, and an object for what its members make of the
record read so far. A record whose codecs take what they write is taken for the record of what they
take: the first member in order that is refused is the fault of the whole.
-/

namespace TableKernels.Json

variable {α β σ : Type}

/-! ## Optional values and names -/

theorem takes_optional_none (codec : Codec α) :
    Takes (Codec.optional codec).read .null (.ok none) := by
  refine takes_token rfl fun lead rest blanks _ => ?_
  change Reader.optional codec.read (lead ++ 'n' :: ('u' :: 'l' :: 'l' :: rest)) = _
  rw [Reader.optional, skipBlanks_lead blanks (by decide)]
  rfl

theorem takes_optional_some {codec : Codec α} {tree : Json} {result : Except Fault α}
    (takes : Takes codec.read tree result) (present : tree.isNull = false) :
    Takes (Codec.optional codec).read tree (result.map some) := by
  intro text rest spells follows
  obtain ⟨lead, first, body, rfl, blanks, opening, spells, null⟩ := spells.head
  have read := takes _ rest spells follows
  have other : first ≠ 'n' := by
    rintro rfl
    exact absurd (null rfl) (by simp [present])
  rw [List.cons_append] at read
  change Reader.optional codec.read _ = _
  rw [Reader.optional, List.append_assoc, List.cons_append,
    skipBlanks_lead blanks (opens_solid opening).1]
  split
  · next same => exact absurd (List.cons.inj same).1 other
  · rw [read]
    cases result <;> rfl

/-- An optional value that is not itself written as null. -/
theorem takes_optional {codec : Codec α} {value : Option α}
    (takes : ∀ one ∈ value, Takes codec.read (codec.write one) (.ok one))
    (present : ∀ one ∈ value, (codec.write one).isNull = false) :
    Takes (Codec.optional codec).read ((Codec.optional codec).write value) (.ok value) := by
  cases value with
  | none => exact takes_optional_none codec
  | some one => exact takes_optional_some (takes one rfl) (present one rfl)

theorem takes_enumerated {table : List (String × α)} {name : String} {value : α}
    (known : table.lookup name = some value) :
    Takes (Reader.enumerated table) (.string name) (.ok value) := by
  refine takes_token rfl fun lead rest blanks _ => ?_
  rw [quoted_append, Reader.enumerated, skipBlanks_lead blanks (by decide)]
  split
  · next same => cases same
  · next same => exact absurd (List.cons.inj same).1 (by decide)
  · next first others _ same =>
    cases same
    rw [if_pos rfl]
    refine (Reader.bind_of_ok (readQuoted_quoted _ _)).trans ?_
    simp only [Reader.variant, known]
    rfl

/-! ## Lists -/

theorem IsBlanks.follows {lead rest : List Char} (blanks : IsBlanks lead) (follows : Follows rest) :
    Follows (lead ++ rest) := by
  cases lead with
  | nil => exact follows
  | cons first lead =>
    have blank := blanks first (List.mem_cons_self ..)
    refine follows_cons ?_
    simp only [isBlank, Bool.or_eq_true, beq_iff_eq] at blank
    rcases blank with ((rfl | rfl) | rfl) | rfl <;> decide

theorem follows_separator {lead rest : List Char} {separator : Char} (blanks : IsBlanks lead)
    (ends : continues separator = false) : Follows (lead ++ separator :: rest) :=
  blanks.follows (follows_cons ends)

theorem SpellsItems.follows {items : List Json} {text rest : List Char}
    (spells : SpellsItems false items text) : Follows (text ++ rest) := by
  cases spells with
  | done blanks =>
    rw [List.append_assoc]
    exact follows_separator blanks (by decide)
  | next blanks value others =>
    rw [List.append_assoc]
    exact follows_separator blanks (by decide)

theorem SpellsItems.length_le {first : Bool} {items : List Json} {text : List Char}
    (spells : SpellsItems first items text) : items.length ≤ text.length := by
  induction items generalizing first text with
  | nil => exact Nat.zero_le _
  | cons item items hypothesis =>
    cases spells with
    | head value others =>
      obtain ⟨lead, first, body, rfl, _⟩ := value.head
      have rest := hypothesis others
      simp only [List.length_append, List.length_cons]
      omega
    | next blanks value others =>
      have rest := hypothesis others
      simp only [List.length_append, List.length_cons]
      omega

theorem nextItem_done {lead rest : List Char} (first : Bool) (blanks : IsBlanks lead) :
    Reader.nextItem first (lead ++ ']' :: rest) = .ok (false, ']' :: rest) := by
  rw [Reader.nextItem, skipBlanks_lead blanks (by decide)]
  rfl

/-- The next item, without what is in front of it. -/
theorem SpellsItems.nextItem_cons {first : Bool} {item : Json} {items : List Json}
    {text : List Char} (spells : SpellsItems first (item :: items) text) :
    ∃ body others, Spells item body ∧ SpellsItems false items others ∧
      ∀ rest, Reader.nextItem first (text ++ rest) = .ok (true, body ++ (others ++ rest)) := by
  cases spells with
  | head value others =>
    obtain ⟨lead, head, body, rfl, blanks, opening, spells, _⟩ := value.head
    obtain ⟨solid, close, _⟩ := opens_solid opening
    refine ⟨_, _, spells, others, fun rest => ?_⟩
    rw [List.append_assoc, List.append_assoc, List.cons_append, Reader.nextItem,
      skipBlanks_lead blanks solid]
    split
    · next same => cases same
    · next same => exact absurd (List.cons.inj same).1 close
    · next same =>
      cases same
      rfl
  | next before value others =>
    obtain ⟨lead, head, body, rfl, blanks, opening, spells, _⟩ := value.head
    obtain ⟨solid, close, _⟩ := opens_solid opening
    refine ⟨_, _, spells, others, fun rest => ?_⟩
    rw [List.append_assoc, List.cons_append, List.append_assoc, List.append_assoc,
      List.cons_append, Reader.nextItem, skipBlanks_lead before (by decide)]
    split
    · next same => cases same
    · next same => exact absurd (List.cons.inj same).1 (by decide)
    · next same =>
      cases same
      simp only [Bool.false_eq_true, if_false, if_true, skipBlanks_lead blanks solid]
      split
      · next same => cases same
      · next same => exact absurd (List.cons.inj same).1 close
      · rfl

/-- The items up to the closing bracket. -/
theorem itemsFrom_spells {item : Reader α} {trees : List Json} {values : List α} {first : Bool}
    {text : List Char} (spells : SpellsItems first trees text)
    (takes : List.Forall₂ (fun tree value => Takes item tree (.ok value)) trees values)
    (fuel : ℕ) (enough : trees.length < fuel) (rest : List Char) :
    Reader.itemsFrom item fuel first (text ++ rest) = .ok (values, ']' :: rest) := by
  induction takes generalizing first text fuel with
  | nil =>
    obtain ⟨fuel, rfl⟩ := Nat.exists_eq_add_of_le' (Nat.succ_le_of_lt enough)
    cases spells with
    | done blanks =>
      rw [List.append_assoc, List.singleton_append]
      exact Reader.bind_of_ok (nextItem_done first blanks)
  | cons one _ hypothesis =>
    rw [List.length_cons] at enough
    obtain ⟨fuel, rfl⟩ := Nat.exists_eq_add_of_le' (by omega : 1 ≤ fuel)
    obtain ⟨body, others, value, more, next⟩ := spells.nextItem_cons
    have read := one body (others ++ rest) value more.follows
    have tail := hypothesis more fuel (by omega)
    exact (Reader.bind_of_ok (next rest)).trans
      ((Reader.bind_of_ok read).trans (Reader.bind_of_ok tail))

theorem takes_list {codec : Codec α} {values : List α}
    (takes : ∀ value ∈ values, Takes codec.read (codec.write value) (.ok value)) :
    Takes (Codec.list codec).read ((Codec.list codec).write values) (.ok values) := by
  intro text rest spells follows
  cases spells with
  | token blanks written => cases written
  | @array _ lead text blanks parts =>
    have each : List.Forall₂ (fun tree value => Takes codec.read tree (.ok value))
        (values.map codec.write) values := by
      rw [List.forall₂_map_left_iff, List.forall₂_same]
      exact takes
    have long := parts.length_le
    have items := itemsFrom_spells parts each ((text ++ rest).length + 1)
      (by rw [List.length_append]; omega) rest
    change Reader.list codec.read _ = _
    rw [Reader.list, List.append_assoc, List.cons_append, skipBlanks_lead blanks (by decide)]
    exact Reader.bind_of_ok items

/-! ## Objects -/

theorem SpellsMembers.follows {members : List (String × Json)} {text rest : List Char}
    (spells : SpellsMembers false members text) : Follows (text ++ rest) := by
  cases spells with
  | done blanks =>
    rw [List.append_assoc]
    exact follows_separator blanks (by decide)
  | next comma blanks colon value others =>
    rw [List.append_assoc]
    exact follows_separator comma (by decide)

theorem SpellsMembers.length_le {first : Bool} {members : List (String × Json)}
    {text : List Char} (spells : SpellsMembers first members text) :
    members.length ≤ text.length := by
  induction members generalizing first text with
  | nil => exact Nat.zero_le _
  | cons member members hypothesis =>
    cases spells with
    | head blanks colon value others =>
      have rest := hypothesis others
      simp only [List.length_append, List.length_cons]
      omega
    | next comma blanks colon value others =>
      have rest := hypothesis others
      simp only [List.length_append, List.length_cons]
      omega

theorem nextName_done {lead rest : List Char} (first : Bool) (blanks : IsBlanks lead) :
    Reader.nextName first (lead ++ '\x7d' :: rest) = .ok (none, '\x7d' :: rest) := by
  rw [Reader.nextName, skipBlanks_lead blanks (by decide)]
  rfl

/-- The first name of an object stands behind blanks. -/
theorem nextName_first {lead body rest : List Char} {name : String} (blanks : IsBlanks lead)
    (read : readQuoted body = .ok (name, rest)) :
    Reader.nextName true (lead ++ quote :: body) = .ok (some name, rest) := by
  rw [Reader.nextName, skipBlanks_lead blanks (by decide)]
  split
  · next same => cases same
  · next same => exact absurd (List.cons.inj same).1 (by decide)
  · next same =>
    cases same
    simp only [if_true, read]
    rfl

/-- A later name of an object stands behind a comma. -/
theorem nextName_later {before lead body rest : List Char} {name : String}
    (comma : IsBlanks before) (blanks : IsBlanks lead)
    (read : readQuoted body = .ok (name, rest)) :
    Reader.nextName false (before ++ ',' :: (lead ++ quote :: body)) = .ok (some name, rest) := by
  have solid : isBlank quote = false := by decide
  rw [Reader.nextName, skipBlanks_lead comma (by decide)]
  split
  · next same => cases same
  · next same => exact absurd (List.cons.inj same).1 (by decide)
  · next same =>
    cases same
    simp only [Bool.false_eq_true, if_false, if_true, skipBlanks_lead blanks solid, read]
    rfl

/-- The next name; what is left begins with the colon, behind blanks. -/
theorem SpellsMembers.nextName_cons {first : Bool} {name : String} {tree : Json}
    {members : List (String × Json)} {text : List Char}
    (spells : SpellsMembers first ((name, tree) :: members) text) :
    ∃ middle body others, IsBlanks middle ∧ Spells tree body ∧ SpellsMembers false members others ∧
      ∀ rest, Reader.nextName first (text ++ rest) =
        .ok (some name, middle ++ ':' :: (body ++ (others ++ rest))) := by
  cases spells with
  | head blanks colon value others =>
    refine ⟨_, _, _, colon, value, others, fun rest => ?_⟩
    simp only [List.append_assoc, List.cons_append]
    rw [quoted_append]
    exact nextName_first blanks (readQuoted_quoted _ _)
  | next comma blanks colon value others =>
    refine ⟨_, _, _, colon, value, others, fun rest => ?_⟩
    simp only [List.append_assoc, List.cons_append]
    rw [quoted_append]
    exact nextName_later comma blanks (readQuoted_quoted _ _)

/-- A reader makes the same of every spelling of a tree behind the colon of a member. -/
def TakesMember (reader : Reader σ) (tree : Json) (result : Except Fault σ) : Prop :=
  ∀ middle text rest, IsBlanks middle → Spells tree text → Follows rest →
    reader (middle ++ ':' :: (text ++ rest)) = result.map (·, rest)

theorem takesMember_colon {reader : Reader α} {tree : Json} {result : Except Fault α}
    (takes : Takes reader tree result) (f : α → σ) :
    TakesMember (do Reader.colon; return f (← reader)) tree (result.map f) := by
  intro middle text rest colon spells follows
  have read := takes text rest spells follows
  refine (Reader.bind_of_ok (colon_passed colon _)).trans ?_
  change Reader.bind reader _ _ = _
  rw [Reader.bind, read]
  cases result <;> rfl

theorem TakesMember.map {reader : Reader α} {tree : Json} {result : Except Fault α}
    (takes : TakesMember reader tree result) (f : α → β) :
    TakesMember (do return f (← reader)) tree (result.map f) := by
  intro middle text rest colon spells follows
  have read := takes middle text rest colon spells follows
  change Reader.bind reader _ _ = _
  rw [Reader.bind, read]
  cases result <;> rfl

/-- Members are put into a state one after another, up to the first that is refused. -/
inductive Gathers (member : String → σ → Reader σ) :
    List (String × Json) → σ → Except Fault σ → Prop
  | done (state : σ) : Gathers member [] state (.ok state)
  | next {name : String} {tree : Json} {members : List (String × Json)} {state after : σ}
      {result : Except Fault σ} (takes : TakesMember (member name state) tree (.ok after))
      (others : Gathers member members after result) :
      Gathers member ((name, tree) :: members) state result
  | refused {name : String} {tree : Json} {members : List (String × Json)} {state : σ}
      {fault : Fault} (takes : TakesMember (member name state) tree (.error fault)) :
      Gathers member ((name, tree) :: members) state (.error fault)

theorem membersFrom_named (member : String → σ → Reader σ) (state : σ) {first : Bool}
    {key : String} {text rest : List Char}
    (next : Reader.nextName first text = .ok (some key, rest)) (fuel : ℕ) :
    Reader.membersFrom member (fuel + 1) first state text =
      Reader.bind (member key state) (Reader.membersFrom member fuel false) rest :=
  Reader.bind_of_ok next

/-- The members up to the closing brace. -/
theorem membersFrom_spells {member : String → σ → Reader σ} {members : List (String × Json)}
    {state : σ} {result : Except Fault σ} {first : Bool} {text : List Char}
    (gathers : Gathers member members state result)
    (spells : SpellsMembers first members text) (fuel : ℕ) (enough : members.length < fuel)
    (rest : List Char) :
    Reader.membersFrom member fuel first state (text ++ rest) =
      result.map (·, '\x7d' :: rest) := by
  induction gathers generalizing first text fuel with
  | done state =>
    obtain ⟨fuel, rfl⟩ := Nat.exists_eq_add_of_le' (Nat.succ_le_of_lt enough)
    cases spells with
    | done blanks =>
      rw [List.append_assoc, List.singleton_append]
      exact Reader.bind_of_ok (nextName_done first blanks)
  | next takes _ hypothesis =>
    rw [List.length_cons] at enough
    obtain ⟨fuel, rfl⟩ := Nat.exists_eq_add_of_le' (by omega : 1 ≤ fuel)
    obtain ⟨middle, body, others, colon, value, more, next⟩ := spells.nextName_cons
    have read := takes middle body (others ++ rest) colon value more.follows
    exact (membersFrom_named member _ (next rest) fuel).trans
      ((Reader.bind_of_ok read).trans (hypothesis more fuel (by omega)))
  | refused takes =>
    obtain ⟨fuel, rfl⟩ := Nat.exists_eq_add_of_le' (by omega : 1 ≤ fuel)
    obtain ⟨middle, body, others, colon, value, more, next⟩ := spells.nextName_cons
    have read := takes middle body (others ++ rest) colon value more.follows
    exact (membersFrom_named member _ (next rest) fuel).trans (Reader.bind_of_error read)

/-! ## Records -/

namespace Fields

variable {All Some : Type}

/-- What the codecs of some members make of what they write, one member after another. -/
inductive Takes : {All Some : Type} → Fields All Some → All → Except Fault All → Prop
  | done : Fields.Takes .done () (.ok ())
  | field {α All Some : Type} {name : String} {codec : Codec α} {presence : Presence α}
      {rest : Fields All Some} {value : α} {others : All} {one : Except Fault α}
      {more : Except Fault All} (first : Json.Takes codec.read (codec.write value) one)
      (next : Fields.Takes rest others more) :
      Fields.Takes (.field name codec presence rest) (value, others)
        (one.bind fun value => more.map (value, ·))

/-- What is known of a record once all its members were read. -/
def full {All Some : Type} (fields : Fields All Some) (values : All) : Some :=
  match fields, values with
  | done, _ => ()
  | field _ _ _ rest, (value, others) => (some value, rest.full others)

theorem finish_full (fields : Fields All Some) (values : All) :
    fields.finish (fields.full values) = .ok values := by
  induction fields with
  | done => rfl
  | field name codec presence rest hypothesis =>
    obtain ⟨value, others⟩ := values
    rw [full, finish, Option.some_or]
    simp only [hypothesis]
    rfl

theorem member?_head {α : Type} {name : String} {codec : Codec α} {presence : Presence α}
    {rest : Fields All Some} (read : Some) :
    (field name codec presence rest).member? name (none, read) =
      some (do Reader.colon; return (some (← codec.read), read)) := by
  rw [member?, if_pos rfl]
  rfl

theorem member?_tail {α : Type} {name key : String} {codec : Codec α} {presence : Presence α}
    {rest : Fields All Some} (other : key ≠ name) (value : Option α) (read : Some) :
    (field name codec presence rest).member? key (value, read) =
      (rest.member? key read).map fun reader => do return (value, ← reader) := by
  rw [member?, if_neg other]

/--
Written members are gathered in order by any reader that reads each as its field says; `put` is where
what was read of them is kept.
-/
theorem gathers_write {fields : Fields All Some} {values : All} {result : Except Fault All}
    (takes : fields.Takes values result) (distinct : fields.names.Nodup)
    {member : String → σ → Reader σ} (put : Some → σ)
    (reads : ∀ key ∈ fields.names, ∀ read reader, fields.member? key read = some reader →
      member key (put read) = (do return put (← reader))) :
    Gathers member (fields.write values) (put fields.start)
      (result.map fun values => put (fields.full values)) := by
  induction takes with
  | done => exact .done _
  | @field α All Some name codec presence rest value others one more first next hypothesis =>
    obtain ⟨fresh, distinct⟩ := List.nodup_cons.mp distinct
    have head : TakesMember (member name (put (none, rest.start))) (codec.write value)
        (one.map fun value => put (some value, rest.start)) := by
      rw [reads name (List.mem_cons_self ..) _ _ (member?_head rest.start)]
      have read := (takesMember_colon first fun value => (some value, rest.start)).map put
      cases one <;> exact read
    cases one with
    | error fault => exact .refused head
    | ok value =>
      refine .next head ?_
      have tail := hypothesis distinct (fun read => put (some value, read)) ?_
      · cases more <;> exact tail
      · intro key mem read reader known
        have other : key ≠ name := fun same => fresh (same ▸ mem)
        rw [reads key (List.mem_cons_of_mem _ mem) (some value, read) _
          ((member?_tail other _ read).trans (by rw [known]; rfl))]
        funext text
        change Reader.bind (Reader.bind reader _) _ text = Reader.bind reader _ text
        simp only [Reader.bind]
        cases reader text <;> rfl

theorem gathers_known {fields : Fields All Some} {values : All} {result : Except Fault All}
    (takes : fields.Takes values result) (distinct : fields.names.Nodup)
    {member : String → Some → Reader Some}
    (reads : ∀ key read reader, fields.member? key read = some reader → member key read = reader) :
    Gathers member (fields.write values) fields.start (result.map fields.full) := by
  refine gathers_write takes distinct id fun key _ read reader known => ?_
  rw [id, reads key read reader known]
  funext text
  change reader text = Reader.bind reader _ text
  rw [Reader.bind]
  cases reader text <;> rfl

end Fields

/-- A record is taken for the record of what its codecs take. -/
theorem takes_record {All Some : Type} {name : String} {fields : Fields All Some} {strict : Bool}
    {values : All} {result : Except Fault All} (takes : fields.Takes values result)
    (distinct : fields.names.Nodup) :
    Takes (Codec.record name fields strict).read ((Codec.record name fields strict).write values)
      result := by
  intro text rest spells follows
  cases spells with
  | token blanks written => cases written
  | @object _ lead text blanks parts =>
    have long := parts.length_le
    have members {member : String → Some → Reader Some}
        (reads : ∀ key read reader, fields.member? key read = some reader →
          member key read = reader) :
        Reader.membersFrom member ((text ++ rest).length + 1) true fields.start (text ++ rest) =
          (result.map fields.full).map (·, '\x7d' :: rest) :=
      membersFrom_spells (fields.gathers_known takes distinct reads) parts _
        (by rw [List.length_append]; omega) rest
    change readRecord name fields strict _ = _
    rw [readRecord, List.append_assoc, List.cons_append, skipBlanks_lead blanks (by decide)]
    change Reader.bind (Reader.membersFrom _ _ true _) _ _ = _
    rw [Reader.bind, members fun key read reader known => by simp only [known]]
    cases result with
    | error fault => rfl
    | ok all =>
      simp only [Except.map, fields.finish_full]
      rfl

/-- A record that stands for a value of another type. -/
theorem takes_mapped {All Some : Type} {name : String} {fields : Fields All Some} {strict : Bool}
    {into : All → α} {back : α → All} {value : α} {result : Except Fault All}
    (takes : fields.Takes (back value) result) (distinct : fields.names.Nodup) :
    Takes ((Codec.record name fields strict).map into back).read
      (((Codec.record name fields strict).map into back).write value) (result.map into) :=
  takes_map into (takes_record takes distinct)

end TableKernels.Json
