import Decaf.Recognizer.Basic
import Mathlib.Data.Option.Basic

/-!
# What registrations come to

The tables hold a row for every kind of token, and a registration sets some entries of one row.
`row_register` says what becomes of a row: what is set replaces what was there, and an operand
brings a power only where there is none. Of registrations one after the other the last that sets an
entry counts (`row_register_all`), so that registering the same again changes nothing. The tables
for types and the others are filled independently of each other (`register_all_join`), so that
registrations for them may change places. `registrations_settle` is all of this for new tables and
for any others.
-/

namespace Decaf

/-! ## Rows -/

/-- What tables hold for one kind, or what a registration sets for it. -/
@[ext]
structure TableRow (Plain Graded : Type) where
  statement : Option Plain := none
  operand : Option Plain := none
  operator : Option Graded := none
  power : Option Power := none
  typeHead : Option Plain := none
  typeSuffix : Option Graded := none
  typePower : Option Power := none

variable {Plain Graded Entry : Type}

namespace TableRow

/-- The entries of a later row, and those of an earlier one where the later has none. -/
def or (later earlier : TableRow Plain Graded) : TableRow Plain Graded where
  statement := later.statement.or earlier.statement
  operand := later.operand.or earlier.operand
  operator := later.operator.or earlier.operator
  power := later.power.or earlier.power
  typeHead := later.typeHead.or earlier.typeHead
  typeSuffix := later.typeSuffix.or earlier.typeSuffix
  typePower := later.typePower.or earlier.typePower

/-- The power that an operand brings with it where there is none. -/
def operandPower (row : TableRow Plain Graded) : Option Power :=
  row.operand.map fun _ ↦ .primary

/-- The entries of the tables for a kind, once a row was set for it. -/
def onto (later held : TableRow Plain Graded) : TableRow Plain Graded :=
  { later.or held with power := later.power.or (held.power.or later.operandPower) }

/-- Setting nothing leaves all entries as they are. -/
theorem empty_onto (held : TableRow Plain Graded) : onto {} held = held :=
  TableRow.ext rfl rfl rfl Option.or_none rfl rfl rfl

/-- Where there is nothing yet, an operand brings its power unless another power is set. -/
theorem onto_empty (later : TableRow Plain Graded) :
    later.onto {} = { later with power := later.power.or later.operandPower } :=
  TableRow.ext Option.or_none Option.or_none Option.or_none rfl Option.or_none Option.or_none
    Option.or_none

/-- Setting one row after the other is setting the entries of the later, and those of the earlier
where the later has none. -/
theorem onto_onto (later earlier held : TableRow Plain Graded) :
    later.onto (earlier.onto held) = (later.or earlier).onto held := by
  have hpower : later.power.or ((earlier.power.or (held.power.or earlier.operandPower)).or
      later.operandPower) =
        (later.power.or earlier.power).or (held.power.or (later.or earlier).operandPower) := by
    rw [Option.or_assoc, Option.or_assoc, Option.or_assoc]
    -- Both operands bring the same power, so it does not matter which of them is asked first.
    cases hlater : later.operand <;> cases hearlier : earlier.operand <;>
      simp [operandPower, or, hlater, hearlier]
  exact TableRow.ext Option.or_assoc.symm Option.or_assoc.symm Option.or_assoc.symm hpower
    Option.or_assoc.symm Option.or_assoc.symm Option.or_assoc.symm

/-- A row set twice is set once. -/
theorem or_self (row : TableRow Plain Graded) : row.or row = row :=
  TableRow.ext Option.or_self Option.or_self Option.or_self Option.or_self Option.or_self
    Option.or_self Option.or_self

end TableRow

namespace Registration

/-- The kind that a registration is for. -/
def kind : Registration Plain Graded → TokenKind
  | .statement kind _ | .operand kind _ | .operator kind _ _ | .typeHead kind _
  | .typeSuffix kind _ _ => kind

/-- A registration for types. -/
def isType : Registration Plain Graded → Bool
  | .typeHead _ _ | .typeSuffix _ _ _ => true
  | .statement _ _ | .operand _ _ | .operator _ _ _ => false

/-- The entries that a registration sets for its kind. -/
def sets : Registration Plain Graded → TableRow Plain Graded
  | .statement _ rule => { statement := some rule, power := some .lowest }
  | .operand _ rule => { operand := some rule }
  | .operator _ power rule => { operator := some rule, power := some power }
  | .typeHead _ rule => { typeHead := some rule, typePower := some .primary }
  | .typeSuffix _ power rule => { typeSuffix := some rule, typePower := some power }

/-- The entries that a registration sets for a kind. There are none unless it is for this kind. -/
def row (registration : Registration Plain Graded) (kind : TokenKind) : TableRow Plain Graded :=
  if registration.kind = kind then registration.sets else {}

/-- The last entry that registrations set in a column of a kind's row. -/
def last (column : TableRow Plain Graded → Option Entry) (kind : TokenKind)
    (registrations : List (Registration Plain Graded)) : Option Entry :=
  (registrations.filterMap fun registration ↦ column (registration.row kind)).getLast?

/-- The first registration counts for an entry that no later one sets. -/
theorem last_cons (column : TableRow Plain Graded → Option Entry) (kind : TokenKind)
    (first : Registration Plain Graded) (rest : List (Registration Plain Graded)) :
    last column kind (first :: rest) = (last column kind rest).or (column (first.row kind)) := by
  unfold last
  rw [List.filterMap_cons]
  cases column (first.row kind) with
  | none => rw [Option.or_none]
  | some entry =>
      show (entry :: _).getLast? = _
      rw [List.getLast?_cons, Option.or_some]

/-- The row of the last entries that registrations set for a kind. -/
def lastRow (kind : TokenKind) (registrations : List (Registration Plain Graded)) :
    TableRow Plain Graded where
  statement := last TableRow.statement kind registrations
  operand := last TableRow.operand kind registrations
  operator := last TableRow.operator kind registrations
  power := last TableRow.power kind registrations
  typeHead := last TableRow.typeHead kind registrations
  typeSuffix := last TableRow.typeSuffix kind registrations
  typePower := last TableRow.typePower kind registrations

/-- The row of the first registration counts where the later ones set nothing. -/
theorem last_row_cons (kind : TokenKind) (first : Registration Plain Graded)
    (rest : List (Registration Plain Graded)) :
    lastRow kind (first :: rest) = (lastRow kind rest).or (first.row kind) := by
  simp only [lastRow, last_cons, TableRow.or]

end Registration

namespace Tables

variable {tables other : Tables Plain Graded}

/-- The row of a kind. -/
def row (tables : Tables Plain Graded) (kind : TokenKind) : TableRow Plain Graded where
  statement := tables.statement kind
  operand := tables.operand kind
  operator := tables.operator kind
  power := tables.power kind
  typeHead := tables.typeHead kind
  typeSuffix := tables.typeSuffix kind
  typePower := tables.typePower kind

/-- Tables are the same if their rows are. -/
theorem ext_row (h : ∀ kind, tables.row kind = other.row kind) : tables = other := by
  cases tables
  cases other
  simp only [mk.injEq]
  exact ⟨funext fun kind ↦ congrArg TableRow.statement (h kind),
    funext fun kind ↦ congrArg TableRow.operand (h kind),
    funext fun kind ↦ congrArg TableRow.operator (h kind),
    funext fun kind ↦ congrArg TableRow.power (h kind),
    funext fun kind ↦ congrArg TableRow.typeHead (h kind),
    funext fun kind ↦ congrArg TableRow.typeSuffix (h kind),
    funext fun kind ↦ congrArg TableRow.typePower (h kind)⟩

/-- A registration sets its row for the kind that it is for, and leaves all other rows. -/
theorem row_register (tables : Tables Plain Graded) (registration : Registration Plain Graded)
    (kind : TokenKind) :
    (tables.register registration).row kind = (registration.row kind).onto (tables.row kind) := by
  unfold Registration.row
  split
  · next hkind =>
    subst hkind
    cases registration <;>
      simp [register, row, TableRow.onto, TableRow.or, TableRow.operandPower, Registration.kind,
        Registration.sets]
  · next hkind =>
    rw [TableRow.empty_onto]
    cases registration with
    | statement entered | operand entered | operator entered | typeHead entered
    | typeSuffix entered =>
        have hother : kind ≠ entered := Ne.symm hkind
        simp [register, row, replace_entry_of_ne _ _ hother]

/-- Registrations one after the other set the row of their last entries for every kind. -/
theorem row_register_all (tables : Tables Plain Graded)
    (registrations : List (Registration Plain Graded)) (kind : TokenKind) :
    (tables.registerAll registrations).row kind =
      (Registration.lastRow kind registrations).onto (tables.row kind) := by
  induction registrations generalizing tables with
  | nil => exact (TableRow.empty_onto _).symm
  | cons first rest ih =>
      show ((tables.register first).registerAll rest).row kind = _
      rw [ih, row_register, TableRow.onto_onto, Registration.last_row_cons]

/-- Registering the same again changes nothing. -/
theorem register_all_twice (tables : Tables Plain Graded)
    (registrations : List (Registration Plain Graded)) :
    (tables.registerAll registrations).registerAll registrations =
      tables.registerAll registrations := by
  refine ext_row fun kind ↦ ?_
  rw [row_register_all, row_register_all, TableRow.onto_onto, TableRow.or_self]

/-! ## The two halves of the tables -/

/-- The tables for statements and expressions from some tables, and those for types from others. -/
def join (tables types : Tables Plain Graded) : Tables Plain Graded :=
  { tables with
    typeHead := types.typeHead
    typeSuffix := types.typeSuffix
    typePower := types.typePower }

/-- A registration for types changes the tables for types, by what these hold, and no others. Any
other registration changes the other tables alike. -/
theorem register_join (tables types : Tables Plain Graded)
    (registration : Registration Plain Graded) :
    (tables.join types).register registration =
      if registration.isType then tables.join (types.register registration)
      else (tables.register registration).join types := by
  cases registration <;> rfl

/-- Registrations fill both halves of the tables independently of each other. -/
theorem register_all_join (tables types : Tables Plain Graded)
    (registrations : List (Registration Plain Graded)) :
    (tables.join types).registerAll registrations =
      (tables.registerAll (registrations.filter fun registration ↦ !registration.isType)).join
        (types.registerAll (registrations.filter Registration.isType)) := by
  induction registrations generalizing tables types with
  | nil => rfl
  | cons first rest ih =>
      show ((tables.join types).register first).registerAll rest = _
      rw [register_join]
      cases htype : first.isType with
      | true =>
          rw [if_pos rfl, ih, List.filter_cons_of_pos htype,
            List.filter_cons_of_neg (by simp [htype])]
          rfl
      | false =>
          rw [if_neg (by simp), ih, List.filter_cons_of_pos (by simp [htype]),
            List.filter_cons_of_neg (by simp [htype])]
          rfl

/-- Registrations for types may change places with others. -/
theorem register_all_comm {others types : List (Registration Plain Graded)}
    (hothers : ∀ registration ∈ others, registration.isType = false)
    (htypes : ∀ registration ∈ types, registration.isType = true) (tables : Tables Plain Graded) :
    (tables.registerAll others).registerAll types =
      (tables.registerAll types).registerAll others := by
  have hjoined (mixed : List (Registration Plain Graded))
      (hleft : (mixed.filter fun registration ↦ !registration.isType) = others)
      (hright : mixed.filter Registration.isType = types) :
      tables.registerAll mixed = (tables.registerAll others).join (tables.registerAll types) := by
    rw [← hleft, ← hright]
    exact register_all_join tables tables mixed
  have hnoTypes : others.filter Registration.isType = [] :=
    List.filter_eq_nil_iff.mpr fun registration hmem ↦ by simp [hothers registration hmem]
  have hnoOthers : (types.filter fun registration ↦ !registration.isType) = [] :=
    List.filter_eq_nil_iff.mpr fun registration hmem ↦ by simp [htypes registration hmem]
  have hallOthers : (others.filter fun registration ↦ !registration.isType) = others :=
    List.filter_eq_self.mpr fun registration hmem ↦ by simp [hothers registration hmem]
  have hallTypes : types.filter Registration.isType = types := List.filter_eq_self.mpr htypes
  calc
    (tables.registerAll others).registerAll types = tables.registerAll (others ++ types) :=
      List.foldl_append.symm
    _ = (tables.registerAll others).join (tables.registerAll types) :=
      hjoined _ (by rw [List.filter_append, hallOthers, hnoOthers, List.append_nil])
        (by rw [List.filter_append, hnoTypes, hallTypes, List.nil_append])
    _ = tables.registerAll (types ++ others) :=
      (hjoined _ (by rw [List.filter_append, hnoOthers, hallOthers, List.nil_append])
        (by rw [List.filter_append, hallTypes, hnoTypes, List.append_nil])).symm
    _ = (tables.registerAll types).registerAll others := List.foldl_append

end Tables

/-! ## Outcomes -/

/-- A registration whose rules go by other names. -/
def Registration.rename (plain : Rule → Plain) (graded : GradedRule → Graded) :
    Registration → Registration Plain Graded
  | .statement kind rule => .statement kind (plain rule)
  | .operand kind rule => .operand kind (plain rule)
  | .operator kind power rule => .operator kind power (graded rule)
  | .typeHead kind rule => .typeHead kind (plain rule)
  | .typeSuffix kind power rule => .typeSuffix kind power (graded rule)

/-- Registrations for types stay for types under other names, and so do the others. -/
theorem all_renamed (plain : Rule → Plain) (graded : GradedRule → Graded)
    {registrations : List Registration} {type : Bool}
    (h : ∀ registration ∈ registrations, registration.isType = type) :
    ∀ registration ∈ registrations.map (Registration.rename plain graded),
      registration.isType = type := by
  rw [List.forall_mem_map]
  intro registration hmem
  rw [← h registration hmem]
  cases registration <;> rfl

open Registration Tables

/-- What tables hold for a kind is settled by some registrations: each entry by the last of them
that sets it. The power is that of an operator or a statement, which has the lowest, and only
without one does an operand have the power `primary`. -/
structure Tables.SettledBy (tables : Tables Plain Graded)
    (registrations : List (Registration Plain Graded)) (kind : TokenKind) : Prop where
  statement : tables.statement kind = last TableRow.statement kind registrations
  operand : tables.operand kind = last TableRow.operand kind registrations
  operator : tables.operator kind = last TableRow.operator kind registrations
  power : tables.power kind = (last TableRow.power kind registrations).or
    ((last TableRow.operand kind registrations).map fun _ ↦ .primary)
  typeHead : tables.typeHead kind = last TableRow.typeHead kind registrations
  typeSuffix : tables.typeSuffix kind = last TableRow.typeSuffix kind registrations
  typePower : tables.typePower kind = last TableRow.typePower kind registrations

/-- The tables of a recognizer start empty. -/
theorem tables_start (tokens : List Token) (file : String) :
    (Recognizer.start tokens file).tables = .empty := by
  cases tokens <;> rfl

/-- Registrations settle what empty tables hold for every kind. -/
theorem settled_by_register_all (registrations : List (Registration Plain Graded))
    (kind : TokenKind) :
    ((Tables.empty : Tables Plain Graded).registerAll registrations).SettledBy registrations
      kind := by
  have hrow := (row_register_all .empty registrations kind).trans (TableRow.onto_empty _)
  exact ⟨congrArg TableRow.statement hrow, congrArg TableRow.operand hrow,
    congrArg TableRow.operator hrow, congrArg TableRow.power hrow,
    congrArg TableRow.typeHead hrow, congrArg TableRow.typeSuffix hrow,
    congrArg TableRow.typePower hrow⟩

/-- An operand changes no power that is there. -/
theorem power_register_operand {tables : Tables Plain Graded} {other : TokenKind} {power : Power}
    (hpower : tables.power other = some power) (kind : TokenKind) (rule : Plain) :
    (tables.register (.operand kind rule)).power other = some power := by
  by_cases hsame : other = kind
  · subst hsame
    simp [register, hpower]
  · simp [register, replace_entry_of_ne _ _ hsame, hpower]

/-- Registrations have the same outcome whatever the rules are. They settle the tables of a new
recognizer, and an operand never changes a power that is there. They fill the tables for types and
the others independently of each other, and made again they change nothing. So the registrations of
Decaf may be made again, and in either order, in tables with any other rules. -/
theorem registrations_settle (registrations : List (Registration Plain Graded)) :
    (∀ tokens file calls, ((Recognizer.start tokens file).register calls).tables =
        Tables.empty.registerAll calls) ∧
      (∀ kind, (Tables.empty.registerAll registrations).SettledBy registrations kind) ∧
      (∀ (tables : Tables Plain Graded) kind rule other power, tables.power other = some power →
        (tables.register (.operand kind rule)).power other = some power) ∧
      (∀ tables types : Tables Plain Graded, (tables.join types).registerAll registrations =
        (tables.registerAll (registrations.filter fun registration ↦ !registration.isType)).join
          (types.registerAll (registrations.filter Registration.isType))) ∧
      (∀ tables : Tables Plain Graded,
        (tables.registerAll registrations).registerAll registrations =
          tables.registerAll registrations) ∧
      ∀ (tables : Tables Plain Graded) (plain : Rule → Plain) (graded : GradedRule → Graded),
        let expressions := expressionRegistrations.map (rename plain graded)
        let types := typeRegistrations.map (rename plain graded)
        (tables.registerAll expressions).registerAll expressions =
            tables.registerAll expressions ∧
          (tables.registerAll types).registerAll types = tables.registerAll types ∧
          (tables.registerAll expressions).registerAll types =
            (tables.registerAll types).registerAll expressions := by
  refine ⟨fun tokens file calls ↦ ?_, settled_by_register_all registrations,
    fun _ kind rule _ _ hpower ↦ power_register_operand hpower kind rule,
    fun tables types ↦ register_all_join tables types registrations,
    fun tables ↦ register_all_twice tables registrations, ?_⟩
  · rw [Recognizer.register, tables_start]
  · intro tables plain graded expressions types
    have hexpressions : ∀ registration ∈ expressions, registration.isType = false :=
      all_renamed plain graded (by decide)
    have htypes : ∀ registration ∈ types, registration.isType = true :=
      all_renamed plain graded (by decide)
    exact ⟨register_all_twice tables expressions, register_all_twice tables types,
      register_all_comm hexpressions htypes tables⟩

/-- A sign is registered as an operand behind its operator, whose power it leaves. -/
example : Tables.standard.operand .minus = some .signed ∧
    Tables.standard.power .minus = some .additive := by decide

end Decaf
