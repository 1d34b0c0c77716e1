import Mazewalk.Json.Model
import Mazewalk.Proofs.Roster.Lookup
import Mazewalk.Proofs.Text.Words

/-!
# What is stored can be read back

Each type of the model is written as a JSON value by its `toJson` and read by its `ofJson?`.  The
reader takes more forms than are ever written: records as lists of their fields, fields in another
order, defaults, names as keys of objects.  This file shows that it takes those that are written,
for what they are (`Json.read_stored`).

The values of the model are numbers, and those of a file have a range.  `IsWord` says of a type
that the numbers in it are in the range of their fields; ids, pars, stars and counts are in range by
their types.  For the counts of loops the converse matters too: one that was read is the number in
the file, so that zero and numbers that are too large were refused, not rounded.
-/

namespace Mazewalk

open Json

/-! ### Numbers and names -/

theorem Json.Value.word?_nat {n : Nat} (h : n < wordSize) : (nat n).word? = some n :=
  natBelow?_nat h

theorem Level.idOfJson?_nat (id : LevelId) : idOfJson? (.nat id.toNat) = some id := by
  rw [idOfJson?, Value.natBelow?_nat id.toNat_lt, Option.map_some, UInt32.ofNat_toNat]

theorem Level.parOfJson?_nat (par : UInt64) : parOfJson? (.nat par.toNat) = some par := by
  rw [parOfJson?, Value.word?_nat par.toNat_lt, Option.map_some, UInt64.ofNat_toNat]

theorem Level.starsOfJson?_nat (stars : UInt8) : starsOfJson? (.nat stars.toNat) = some stars := by
  rw [starsOfJson?, Value.natBelow?_nat stars.toNat_lt, Option.map_some, UInt8.ofNat_toNat]

theorem Heading.ofJson?_toJson (heading : Heading) : ofJson? heading.toJson = some heading :=
  ofName?_name heading

theorem Terrain.ofJson?_toJson (terrain : Terrain) : ofJson? terrain.toJson = some terrain :=
  ofName?_name terrain

theorem Action.ofJson?_toJson (action : Action) : ofJson? action.toJson = some action :=
  ofName?_name action

theorem Condition.ofJson?_toJson (condition : Condition) :
    ofJson? condition.toJson = some condition :=
  ofName?_name condition

theorem Condition.ofInnerJson?_toJson (condition : Condition) :
    ofInnerJson? condition.toJson = some condition :=
  ofName?_name condition

theorem Block.ofJson?_toJson (block : Block) : ofJson? block.toJson = some block :=
  ofName?_name block

theorem Count.ofJson?_toJson (count : Count) : ofJson? count.toJson = some count := by
  rw [ofJson?, toJson, Value.natBelow?_nat count.lt, Option.bind_some, ofNat?_val]

/-! ### Worlds -/

theorem Position.ofJson?_toJson {p : Position} (h : p.IsWord) : ofJson? p.toJson = some p := by
  simp only [ofJson?, Option.bind_eq_bind, Option.bind_eq_some_iff]
  -- the record, and then each field: the value under its name, and what is read from it
  exact ⟨_, rfl, _, rfl, _, Value.word?_nat h.1, _, rfl, _, Value.word?_nat h.2, rfl⟩

theorem Tile.ofJson?_toJson (tile : Tile) : ofJson? tile.toJson = some tile := by
  simp only [ofJson?, Option.bind_eq_bind, Option.bind_eq_some_iff]
  exact ⟨_, rfl, _, rfl, _, tile.terrain.ofJson?_toJson, _, rfl, rfl⟩

/-- The walker stands at a pair of machine words. -/
def Walker.IsWord (walker : Walker) : Prop :=
  walker.position.IsWord

instance (walker : Walker) : Decidable walker.IsWord :=
  inferInstanceAs (Decidable walker.position.IsWord)

theorem Walker.ofJson?_toJson {walker : Walker} (h : walker.IsWord) :
    ofJson? walker.toJson = some walker := by
  simp only [ofJson?, Option.bind_eq_bind, Option.bind_eq_some_iff]
  exact ⟨_, rfl, _, rfl, _, Position.ofJson?_toJson h, _, rfl, _, walker.heading.ofJson?_toJson,
    _, rfl, rfl⟩

/-- The sides of the grid are machine words. -/
def Grid.IsWord {α : Type} (g : Grid α) : Prop :=
  g.width < wordSize ∧ g.height < wordSize

instance {α : Type} (g : Grid α) : Decidable g.IsWord :=
  inferInstanceAs (Decidable (_ ∧ _))

theorem Grid.ofJson?_toJson {g : Grid Tile} (h : g.IsWord) :
    ofJson? Tile.ofJson? (g.toJson Tile.toJson) = some g := by
  have hc : (Value.list Tile.toJson g.cells.toList).list? Tile.ofJson? = some g.cells.toList :=
    Value.list?_list fun tile _ => tile.ofJson?_toJson
  simp only [ofJson?, Option.bind_eq_bind, Option.bind_eq_some_iff]
  exact ⟨_, rfl, _, rfl, _, Value.word?_nat h.1, _, rfl, _, Value.word?_nat h.2, _, rfl, _, hc,
    rfl⟩

/-! ### Programs -/

theorem Instruction.ofJson?_toJson (i : Instruction) : ofJson? i.toJson = some i := by
  cases i with
  | act action => cases action <;> rfl
  | wrap wrapper =>
    simp only [ofJson?, Option.bind_eq_bind, Option.bind_eq_some_iff]
    cases wrapper with
    | times count =>
      refine ⟨_, rfl, .times, rfl, ?_⟩
      simp only [Option.bind_eq_some_iff]
      exact ⟨_, rfl, _, rfl, _, count.ofJson?_toJson, rfl⟩
    | whilst condition ceiling =>
      refine ⟨_, rfl, .whilst, rfl, ?_⟩
      simp only [Option.bind_eq_some_iff]
      exact ⟨_, rfl, _, rfl, _, condition.ofInnerJson?_toJson, _, rfl, _, ceiling.ofJson?_toJson,
        rfl⟩

theorem Program.ofJson?_toJson (program : Program) : ofJson? program.toJson = some program :=
  Value.list?_list fun i _ => i.ofJson?_toJson

/-! ### Runs -/

/-- The numbers of the step are machine words. -/
def Step.IsWord (e : Step) : Prop :=
  e.index < wordSize ∧ e.walker.IsWord

instance (e : Step) : Decidable e.IsWord :=
  inferInstanceAs (Decidable (_ ∧ _))

theorem Step.ofJson?_toJson {e : Step} (h : e.IsWord) : ofJson? e.toJson = some e := by
  simp only [ofJson?, Option.bind_eq_bind, Option.bind_eq_some_iff]
  exact ⟨_, rfl, _, rfl, _, Value.word?_nat h.1, _, rfl, _, e.action.ofJson?_toJson, _, rfl, _,
    Walker.ofJson?_toJson h.2, rfl⟩

/-- The place is a machine word, and a ceiling has 32 bits. -/
def Warning.IsWord : Warning → Prop
  | ceiling index limit => index < wordSize ∧ limit < UInt32.size
  | dangling index => index < wordSize
  | nested index => index < wordSize

instance : (w : Warning) → Decidable w.IsWord
  | .ceiling _ _ => inferInstanceAs (Decidable (_ ∧ _))
  | .dangling index => inferInstanceAs (Decidable (index < wordSize))
  | .nested index => inferInstanceAs (Decidable (index < wordSize))

theorem Warning.ofJson?_toJson {w : Warning} (h : w.IsWord) : ofJson? w.toJson = some w := by
  simp only [ofJson?, Option.bind_eq_bind, Option.bind_eq_some_iff]
  cases w with
  | ceiling index limit =>
    refine ⟨_, rfl, ?_⟩
    rw [if_pos rfl]
    simp only [Option.bind_eq_some_iff]
    exact ⟨_, rfl, _, rfl, _, Value.word?_nat h.1, _, rfl, _, Value.natBelow?_nat h.2, rfl⟩
  | dangling index | nested index =>
    refine ⟨_, rfl, ?_⟩
    dsimp only
    rw [if_neg (by decide)]
    simp only [Option.bind_eq_some_iff]
    exact ⟨_, rfl, _, rfl, _, Value.word?_nat h, rfl⟩

/-- The numbers of the walk are machine words. -/
structure Walk.IsWord (walk : Walk) : Prop where
  walker : walk.world.walker.IsWord
  grid : walk.world.grid.IsWord
  trace : ∀ e ∈ walk.trace, e.IsWord
  warnings : ∀ w ∈ walk.warnings, w.IsWord

theorem Step.list?_list {trace : Array Step} (h : ∀ e ∈ trace, e.IsWord) :
    (Value.list toJson trace.toList).list? ofJson? = some trace.toList :=
  Value.list?_list fun e he => ofJson?_toJson (h e (Array.mem_toList_iff.1 he))

theorem Warning.list?_list {warnings : Array Warning} (h : ∀ w ∈ warnings, w.IsWord) :
    (Value.list toJson warnings.toList).list? ofJson? = some warnings.toList :=
  Value.list?_list fun w hw => ofJson?_toJson (h w (Array.mem_toList_iff.1 hw))

theorem Walk.ofJson?_toJson {walk : Walk} (h : walk.IsWord) : ofJson? walk.toJson = some walk := by
  simp only [ofJson?, Option.bind_eq_bind, Option.bind_eq_some_iff]
  exact ⟨_, rfl, _, rfl, _, Walker.ofJson?_toJson h.walker, _, rfl, _,
    Grid.ofJson?_toJson h.grid, _, rfl, _, Step.list?_list h.trace, _, rfl, _,
    Warning.list?_list h.warnings, rfl⟩

/-! ### Levels -/

theorem Level.File.ofJson?_toJson (file : File) : ofJson? file.toJson = some file := by
  have ha : (Value.list Block.toJson file.allowed).list? Block.ofJson? = some file.allowed :=
    Value.list?_list fun block _ => block.ofJson?_toJson
  simp only [ofJson?, Option.bind_eq_bind, Option.bind_eq_some_iff]
  exact ⟨_, rfl, _, rfl, _, idOfJson?_nat file.id, _, rfl, _, rfl, _, rfl, _, rfl, _,
    parOfJson?_nat file.par, _, file.heading.ofJson?_toJson, _, rfl, _, ha, _, rfl, _, rfl, rfl⟩

/-- The numbers of the outcome are machine words. -/
structure Level.Outcome.IsWord (o : Outcome) : Prop where
  walker : o.walker.IsWord
  trace : ∀ e ∈ o.trace, e.IsWord
  warnings : ∀ w ∈ o.warnings, w.IsWord

theorem Level.Outcome.ofJson?_toJson {o : Outcome} (h : o.IsWord) :
    ofJson? o.toJson = some o := by
  simp only [ofJson?, Option.bind_eq_bind, Option.bind_eq_some_iff]
  exact ⟨_, rfl, _, rfl, _, idOfJson?_nat o.levelId, _, rfl, _, rfl, _, rfl, _,
    starsOfJson?_nat o.stars, _, rfl, _, Walker.ofJson?_toJson h.walker, _, rfl, _,
    Step.list?_list h.trace, _, rfl, _, Warning.list?_list h.warnings, rfl⟩

/-! ### Progress -/

theorem Standing.ofJson?_toJson (standing : Standing) :
    ofJson? standing.toJson = some standing := by
  simp only [ofJson?, Option.bind_eq_bind, Option.bind_eq_some_iff]
  exact ⟨_, rfl, _, rfl, _, rfl, _, rfl, _, Level.starsOfJson?_nat standing.stars, rfl⟩

theorem Progress.idOfKey?_toString (id : LevelId) : idOfKey? (toString id.toNat) = some id := by
  have hl : (toString id.toNat).toList = Nat.toDigits 10 id.toNat := String.toList_ofList
  have he : (Nat.toDigits 10 id.toNat).isEmpty = false := by simp [Nat.toDigits_ne_nil]
  have hd : (Nat.toDigits 10 id.toNat).all Char.isDigit = true :=
    List.all_eq_true.2 fun c hc => Text.isDigit_of_mem_toDigits hc
  have hz : ¬ ((Nat.toDigits 10 id.toNat).head? = some '0' ∧
      Nat.toDigits 10 id.toNat ≠ ['0']) := by
    rintro ⟨h0, hne⟩
    rw [Text.eq_zero_of_head?_toDigits h0] at hne
    exact hne rfl
  have hlt : id.toNat < UInt32.size := id.toNat_lt
  simp only [idOfKey?, hl, he, hd, if_neg hz, Text.digitsValue_toDigits, if_pos hlt,
    UInt32.ofNat_toNat]
  rfl

theorem Progress.ofJson?_toJson (progress : Progress) :
    ofJson? progress.toJson = some progress := by
  have he : (progress.standings.entries.map fun entry =>
      (toString entry.1.toNat, entry.2.toJson)).mapM (fun entry => do
        return (← idOfKey? entry.1, ← Standing.ofJson? entry.2)) =
      some progress.standings.entries := by
    generalize progress.standings.entries = entries
    induction entries with
    | nil => rfl
    | cons entry rest ih =>
      rw [List.map_cons, List.mapM_cons, ih, idOfKey?_toString, Standing.ofJson?_toJson]
      rfl
  simp only [ofJson?, Option.bind_eq_bind, Option.bind_eq_some_iff]
  refine ⟨_, rfl, _, rfl, ?_⟩
  simp only [Option.bind_eq_some_iff]
  refine ⟨_, he, ?_⟩
  rw [Roster.insertAll_entries]
  rfl

/-! ### Counts that were read -/

theorem Wrapper.rounds_pos (wrapper : Wrapper) : 1 ≤ wrapper.rounds := by
  cases wrapper with
  | times count => exact count.pos
  | whilst condition ceiling => exact ceiling.pos

theorem Wrapper.rounds_lt (wrapper : Wrapper) : wrapper.rounds < UInt32.size := by
  cases wrapper with
  | times count => exact count.lt
  | whilst condition ceiling => exact ceiling.lt

/-- The values right below a value. -/
def Json.Value.parts : Value → List Value
  | array items => items
  | object fields => fields.map Prod.snd
  | _ => []

theorem Json.Value.mem_parts_of_lookup {value part : Value} {names : List String} {name : String}
    {fields : List (String × Value)} (h : value.record? names = some fields)
    (hl : fields.lookup name = some part) : part ∈ value.parts := by
  have he : (name, part) ∈ fields := by
    obtain ⟨_, _, rfl, -⟩ := List.lookup_eq_some_iff.1 hl
    exact List.mem_append_right _ List.mem_cons_self
  unfold record? at h
  split at h
  · cases h
    exact List.mem_map_of_mem he
  · split at h
    · cases h
      exact (List.of_mem_zip he).2
    · cases h
  · cases h

theorem Json.Value.parts_subset_of_tagged? {value record : Value} {kind : String}
    (h : value.tagged? = some (kind, record)) : record.parts ⊆ value.parts := by
  unfold tagged? at h
  split at h
  · simp only [Option.bind_eq_bind, Option.bind_eq_some_iff] at h
    obtain ⟨_, -, _, -, h⟩ := h
    cases h
    exact fun _ hm => hm
  · cases h
    exact List.subset_cons_self _ _
  · cases h

theorem Count.eq_nat_of_ofJson? {value : Value} {count : Count} (h : ofJson? value = some count) :
    value = .nat count.val := by
  obtain ⟨n, hn, hc⟩ := Option.bind_eq_some_iff.1 h
  have hval : count.val = n := by
    unfold ofNat? at hc
    split at hc
    · cases hc
      rfl
    · cases hc
  unfold Value.natBelow? at hn
  split at hn
  · rename_i i
    split at hn
    · rename_i hi
      have hin : i.toNat = count.val := (Option.some.inj hn).trans hval.symm
      rw [Value.nat, ← hin, Int.toNat_of_nonneg hi.1]
    · cases hn
  · cases hn

/-- The number of rounds of a loop is one of the values that its record is made of. -/
theorem Instruction.rounds_mem_parts {value : Value} {wrapper : Wrapper}
    (h : ofJson? value = some (.wrap wrapper)) : .nat wrapper.rounds ∈ value.parts := by
  simp only [ofJson?, Option.bind_eq_bind, Option.bind_eq_some_iff] at h
  obtain ⟨⟨kind, record⟩, ht, block, -, h⟩ := h
  refine Value.parts_subset_of_tagged? ht ?_
  cases block with
  | forward | turnLeft | turnRight | pickup =>
    dsimp only at h
    split at h <;> cases h
  | times =>
    simp only [Option.bind_eq_some_iff] at h
    obtain ⟨fields, hf, v, hv, count, hc, h⟩ := h
    cases h
    obtain rfl := Count.eq_nat_of_ofJson? hc
    exact Value.mem_parts_of_lookup hf hv
  | whilst =>
    simp only [Option.bind_eq_some_iff] at h
    obtain ⟨fields, hf, _, -, condition, -, v, hv, ceiling, hc, h⟩ := h
    cases h
    obtain rfl := Count.eq_nat_of_ofJson? hc
    exact Value.mem_parts_of_lookup hf hv

/-- If the instruction is a loop, its number of rounds is in range and stands in the value. -/
def Instruction.CountedIn (value : Value) (i : Instruction) : Prop :=
  ∀ wrapper, i = .wrap wrapper →
    1 ≤ wrapper.rounds ∧ wrapper.rounds < UInt32.size ∧ .nat wrapper.rounds ∈ value.parts

theorem Instruction.countedIn_of_ofJson? {value : Value} {i : Instruction}
    (h : ofJson? value = some i) : i.CountedIn value := by
  rintro wrapper rfl
  exact ⟨wrapper.rounds_pos, wrapper.rounds_lt, rounds_mem_parts h⟩

theorem Json.Value.exists_array_of_list? {α : Type} {decode? : Value → Option α} {value : Value}
    {l : List α} (h : value.list? decode? = some l) :
    ∃ items, value = .array items ∧
      List.Forall₂ (fun item a => decode? item = some a) items l := by
  unfold list? at h
  split at h
  · rename_i items
    refine ⟨items, rfl, ?_⟩
    induction items generalizing l with
    | nil =>
      cases h
      exact .nil
    | cons item rest ih =>
      rw [List.mapM_cons] at h
      simp only [Option.bind_eq_bind, Option.bind_eq_some_iff] at h
      obtain ⟨a, ha, l', hl', h⟩ := h
      cases h
      exact .cons ha (ih hl')
  · cases h

/-- **What is stored is read back.**  Every value of the model whose numbers are machine words is
read again from what is written of it.  In the other direction, whatever an instruction or a program
was read from, its loops have the numbers of rounds that stand there, all of them in range, and
nothing is lost when it is written. -/
theorem Json.read_stored :
    ((∀ heading : Heading, Heading.ofJson? heading.toJson = some heading) ∧
      (∀ p : Position, p.IsWord → Position.ofJson? p.toJson = some p) ∧
      (∀ tile : Tile, Tile.ofJson? tile.toJson = some tile) ∧
      (∀ walker : Walker, walker.IsWord → Walker.ofJson? walker.toJson = some walker) ∧
      (∀ g : Grid Tile, g.IsWord → Grid.ofJson? Tile.ofJson? (g.toJson Tile.toJson) = some g)) ∧
    ((∀ condition : Condition, Condition.ofJson? condition.toJson = some condition) ∧
      (∀ action : Action, Action.ofJson? action.toJson = some action) ∧
      (∀ i : Instruction, Instruction.ofJson? i.toJson = some i) ∧
      (∀ program : Program, Program.ofJson? program.toJson = some program)) ∧
    ((∀ e : Step, e.IsWord → Step.ofJson? e.toJson = some e) ∧
      (∀ w : Warning, w.IsWord → Warning.ofJson? w.toJson = some w) ∧
      (∀ walk : Walk, walk.IsWord → Walk.ofJson? walk.toJson = some walk)) ∧
    ((∀ file : Level.File, Level.File.ofJson? file.toJson = some file) ∧
      (∀ o : Level.Outcome, o.IsWord → Level.Outcome.ofJson? o.toJson = some o) ∧
      (∀ standing : Standing, Standing.ofJson? standing.toJson = some standing) ∧
      (∀ progress : Progress, Progress.ofJson? progress.toJson = some progress)) ∧
    (∀ (value : Value) (i : Instruction), Instruction.ofJson? value = some i →
      i.CountedIn value ∧ Instruction.ofJson? i.toJson = some i) ∧
    ∀ (value : Value) (program : Program), Program.ofJson? value = some program →
      (∃ items, value = .array items ∧
        List.Forall₂ (fun item i => i.CountedIn item) items program) ∧
      Program.ofJson? program.toJson = some program := by
  refine ⟨⟨Heading.ofJson?_toJson, fun _ => Position.ofJson?_toJson, Tile.ofJson?_toJson,
      fun _ => Walker.ofJson?_toJson, fun _ => Grid.ofJson?_toJson⟩,
    ⟨Condition.ofJson?_toJson, Action.ofJson?_toJson, Instruction.ofJson?_toJson,
      Program.ofJson?_toJson⟩,
    ⟨fun _ => Step.ofJson?_toJson, fun _ => Warning.ofJson?_toJson,
      fun _ => Walk.ofJson?_toJson⟩,
    ⟨Level.File.ofJson?_toJson, fun _ => Level.Outcome.ofJson?_toJson,
      Standing.ofJson?_toJson, Progress.ofJson?_toJson⟩, fun value i h => ?_,
    fun value program h => ?_⟩
  · exact ⟨Instruction.countedIn_of_ofJson? h, i.ofJson?_toJson⟩
  · obtain ⟨items, hv, hi⟩ := Value.exists_array_of_list? h
    refine ⟨⟨items, hv, hi.imp fun item i hr => ?_⟩, program.ofJson?_toJson⟩
    exact Instruction.countedIn_of_ofJson? hr

/-- One step in a hall, and a loop that was stopped after it. -/
def Walk.brief : Walk :=
  ⟨⟨⟨⟨1, 0⟩, .right, true⟩, ⟨2, 1, #[⟨.start, false⟩, ⟨.goal, true⟩]⟩⟩,
    #[⟨0, .forward, ⟨⟨1, 0⟩, .right, true⟩⟩], #[.ceiling 0 1]⟩

/-- What came of it. -/
def Level.Outcome.brief : Outcome :=
  ⟨1, true, 3, Walk.brief.world.walker, Walk.brief.trace, Walk.brief.warnings⟩

/-- A loop as it may be stored by hand: the fields of the record in a list, the condition under a
name of its own. -/
def Json.Value.listed : Value :=
  .array [.array [.text "while", .object [("path_ahead", .object [])], .nat 7],
    .object [("max", .null), ("kind", .text "forward")]]

theorem Json.read_stored_brief :
    (Walk.brief.IsWord ∧ Walk.ofJson? Walk.brief.toJson = some Walk.brief) ∧
      (Level.Outcome.brief.IsWord ∧
        Level.Outcome.ofJson? Level.Outcome.brief.toJson = some Level.Outcome.brief) ∧
      ∃ program items, Program.ofJson? .listed = some program ∧ Value.listed = .array items ∧
        List.Forall₂ (fun item i => i.CountedIn item) items program ∧
        Program.ofJson? program.toJson = some program := by
  have hwalk : Walk.brief.IsWord := ⟨by decide, by decide, by decide, by decide⟩
  have hout : Level.Outcome.brief.IsWord := ⟨by decide, by decide, by decide⟩
  obtain ⟨-, -, ⟨-, -, hw⟩, ⟨-, ho, -⟩, -, hp⟩ := read_stored
  have hl : Program.ofJson? .listed =
      some [.wrap (.whilst .pathAhead ⟨7, by decide, by decide⟩), .act .forward] := rfl
  obtain ⟨⟨items, hv, hi⟩, hback⟩ := hp _ _ hl
  exact ⟨⟨hwalk, hw _ hwalk⟩, ⟨hout, ho _ hout⟩, _, items, hl, hv, hi, hback⟩

end Mazewalk
