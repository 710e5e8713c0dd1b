import FirmwareGateway.Proofs.Wire.RoundTrip

namespace FirmwareGateway
namespace Wire
namespace Layout

/-!
# Where writing stops

A message is written behind what a buffer holds, field by field.  `Takes` lists the values
that a field takes, and `Refuses` the causes for which it refuses any other.  Writing stops at
the first field that refuses its value, and what it leaves in the buffer is decided by the
place of that field: the lead and the fields before it, whole.
-/

/-! ## One field -/

section
variable (layout : String) (isLast : Bool)

/-- What a field takes: a number that its word is wide enough for, octets of the right count,
and, in the last place, any octets as the tail. -/
inductive Takes : FieldKind → Value → Prop
  | number (word : Word) (n : UInt32) (fits : n.toNat < Nat.pow 256 word.width) :
      Takes (.word word) (.int n)
  | block (octets : Bytes) : Takes (.fixed octets.length) (.bytes octets)
  | tail (octets : Bytes) (last : isLast = true) : Takes .tail (.bytes octets)

/-- Why a field refuses a value.  Where a tail does not belong, the value does not matter. -/
inductive Refuses (field : Field) : Value → Error → Prop
  | misplaced (value : Value) (kind : field.kind = .tail) (early : isLast = false) :
      Refuses field value (.protocol (.misplacedTail layout field.name))
  | count (length : Nat) (octets : Bytes) (kind : field.kind = .fixed length)
      (other : octets.length ≠ length) :
      Refuses field (.bytes octets)
        (.protocol (.fixedLength layout field.name length octets.length))
  | tooLarge (word : Word) (n : UInt32) (kind : field.kind = .word word)
      (large : Nat.pow 256 word.width ≤ n.toNat) :
      Refuses field (.int n) (.fieldOverflow field.name n)
  | number (n : UInt32)
      (kind : (∃ length, field.kind = .fixed length) ∨ field.kind = .tail ∧ isLast = true) :
      Refuses field (.int n) (.protocol (.wrongKind layout field.name field.kind (.int n)))
  | octets (word : Word) (octets : Bytes) (kind : field.kind = .word word) :
      Refuses field (.bytes octets)
        (.protocol (.wrongKind layout field.name field.kind (.bytes octets)))

end

/-- The octets of a value in a field that takes it. -/
def octetsIn : FieldKind → Value → Bytes
  | .word word, .int n => word.write n.toNat
  | _, .bytes octets => octets
  | _, .int _ => []

section
variable {layout : String} {isLast : Bool} {field : Field} {value : Value} {fault : Error}

theorem writeField_of_takes (layout : String) (takes : Takes isLast field.kind value) :
    writeField layout isLast field value = .ok (octetsIn field.kind value) := by
  rcases field with ⟨name, kind⟩
  cases takes with
  | number word n fits => simp only [writeField, if_pos fits, octetsIn]
  | block octets => simp only [writeField, if_true, octetsIn]
  | tail octets last => simp only [writeField, last, if_true, octetsIn]

theorem writeField_of_refuses (refuses : Refuses layout isLast field value fault) :
    writeField layout isLast field value = .error fault := by
  rcases field with ⟨name, kind⟩
  cases refuses with
  | misplaced value tail early =>
    cases tail
    simp only [writeField, early, Bool.false_eq_true, if_false]
  | count length octets fixed other =>
    cases fixed
    simp only [writeField, if_neg other]
  | tooLarge word n isWord large =>
    cases isWord
    simp only [writeField, if_neg (Nat.not_lt.mpr large)]
  | number n other =>
    rcases other with ⟨length, fixed⟩ | ⟨tail, last⟩
    · cases fixed
      simp only [writeField]
    · cases tail
      simp only [writeField, last, if_true]
  | octets word octets isWord =>
    cases isWord
    simp only [writeField]

theorem takes_or_refuses (layout : String) (isLast : Bool) (field : Field) (value : Value) :
    Takes isLast field.kind value ∨ ∃ fault, Refuses layout isLast field value fault := by
  rcases field with ⟨name, kind⟩
  cases kind with
  | word word =>
    cases value with
    | bytes octets => exact Or.inr ⟨_, .octets word octets rfl⟩
    | int n =>
      by_cases fits : n.toNat < Nat.pow 256 word.width
      · exact Or.inl (.number word n fits)
      · exact Or.inr ⟨_, .tooLarge word n rfl (Nat.not_lt.mp fits)⟩
  | fixed length =>
    cases value with
    | int n => exact Or.inr ⟨_, .number n (Or.inl ⟨length, rfl⟩)⟩
    | bytes octets =>
      by_cases same : octets.length = length
      · subst same
        exact Or.inl (.block octets)
      · exact Or.inr ⟨_, .count length octets rfl same⟩
  | tail =>
    cases last : isLast with
    | false => exact Or.inr ⟨_, .misplaced value rfl rfl⟩
    | true =>
      cases value with
      | int n => exact Or.inr ⟨_, .number n (Or.inr ⟨rfl, rfl⟩)⟩
      | bytes octets => exact Or.inl (.tail octets rfl)

theorem Takes.not_refuses (takes : Takes isLast field.kind value)
    (refuses : Refuses layout isLast field value fault) : False := by
  cases (writeField_of_takes layout takes).symm.trans (writeField_of_refuses refuses)

theorem Refuses.unique {other : Error} (refuses : Refuses layout isLast field value fault)
    (again : Refuses layout isLast field value other) : other = fault :=
  Except.error.inj ((writeField_of_refuses again).symm.trans (writeField_of_refuses refuses))

/-- A number that its field has a word for, but none that is wide enough.  Four octets are
wide enough for every number. -/
def Overflows (kind : FieldKind) (value : Value) : Prop :=
  ∃ word n, kind = .word word ∧ word ≠ .u32le ∧ value = .int n ∧ Nat.pow 256 word.width ≤ n.toNat

/-- A field refuses a number as too large only if it would have to be wider, and for any other
cause the rules of the format are broken. -/
theorem Refuses.class_eq (refuses : Refuses layout isLast field value fault) :
    (Overflows field.kind value ∧ ∃ n, value = .int n ∧ fault = .fieldOverflow field.name n) ∨
      ¬ Overflows field.kind value ∧ ∃ cause, fault = .protocol cause := by
  cases refuses with
  | tooLarge word n kind large =>
    left
    refine ⟨⟨word, n, kind, ?_, rfl, large⟩, n, rfl, rfl⟩
    rintro rfl
    exact Nat.lt_irrefl _ (Nat.lt_of_lt_of_le n.toNat_lt large)
  | misplaced value kind early =>
    right
    refine ⟨?_, _, rfl⟩
    rintro ⟨word, n, isWord, -⟩
    cases kind.symm.trans isWord
  | count length octets kind other =>
    right
    refine ⟨?_, _, rfl⟩
    rintro ⟨word, n, isWord, -⟩
    cases kind.symm.trans isWord
  | octets word octets kind =>
    right
    refine ⟨?_, _, rfl⟩
    rintro ⟨_, n, -, -, number, -⟩
    cases number
  | number n kind =>
    right
    refine ⟨?_, _, rfl⟩
    rintro ⟨word, _, isWord, -⟩
    rcases kind with ⟨length, fixed⟩ | ⟨tail, -⟩
    · cases fixed.symm.trans isWord
    · cases tail.symm.trans isWord

end

/-! ## All fields -/

section
variable (layout : String) (fields : List Field) (values : List Value)

/-- A value goes with a field at a place; `isLast` holds in the last place. -/
structure Meets (place : Nat) (isLast : Bool) (field : Field) (value : Value) : Prop where
  field : fields[place]? = some field
  value : values[place]? = some value
  isLast : isLast = decide (place + 1 = fields.length)

/-- The field at a place is the first that refuses its value. -/
structure Stops (place : Nat) (fault : Error) : Prop where
  takes : ∀ earlier isLast field value, earlier < place →
    Meets fields values earlier isLast field value → Takes isLast field.kind value
  refuses : ∃ isLast field value, Meets fields values place isLast field value ∧
    Refuses layout isLast field value fault

/-- Every field takes its value. -/
def TakesAll : Prop :=
  ∀ place isLast field value, Meets fields values place isLast field value →
    Takes isLast field.kind value

/-- The octets of the values in the fields before a place. -/
def octetsBefore (place : Nat) : Bytes :=
  ((fields.zip values).take place).flatMap fun pair => octetsIn pair.1.kind pair.2

end

section
variable {layout : String} {fields : List Field} {values : List Value} {field : Field}
  {value : Value}

theorem meets_zero {isLast : Bool} {other : Field} {another : Value} :
    Meets (field :: fields) (value :: values) 0 isLast other another ↔
      isLast = fields.isEmpty ∧ other = field ∧ another = value := by
  have last : decide (0 + 1 = (field :: fields).length) = fields.isEmpty := by
    cases fields <;> rfl
  constructor
  · rintro ⟨here, there, isLast⟩
    exact ⟨isLast.trans last, (Option.some.inj here).symm, (Option.some.inj there).symm⟩
  · rintro ⟨rfl, rfl, rfl⟩
    exact ⟨rfl, rfl, last.symm⟩

theorem meets_succ {place : Nat} {isLast : Bool} {other : Field} {another : Value} :
    Meets (field :: fields) (value :: values) (place + 1) isLast other another ↔
      Meets fields values place isLast other another := by
  have last : decide (place + 1 + 1 = (field :: fields).length) =
      decide (place + 1 = fields.length) := by
    simp only [List.length_cons, Nat.add_right_cancel_iff]
  constructor
  · rintro ⟨here, there, isLast⟩
    exact ⟨here, there, isLast.trans last⟩
  · rintro ⟨here, there, isLast⟩
    exact ⟨here, there, isLast.trans last.symm⟩

theorem Stops.unique {place other : Nat} {fault another : Error}
    (stops : Stops layout fields values place fault)
    (again : Stops layout fields values other another) : other = place ∧ another = fault := by
  rcases stops.refuses with ⟨isLast, field, value, meets, refuses⟩
  rcases again.refuses with ⟨isOther, second, content, met, refusesToo⟩
  rcases Nat.lt_trichotomy place other with before | rfl | behind
  · exact ((again.takes _ _ _ _ before meets).not_refuses refuses).elim
  · rcases meets with ⟨here, there, rfl⟩
    rcases met with ⟨hereToo, thereToo, rfl⟩
    cases here.symm.trans hereToo
    cases there.symm.trans thereToo
    exact ⟨rfl, refuses.unique refusesToo⟩
  · exact ((stops.takes _ _ _ _ behind met).not_refuses refusesToo).elim

theorem Stops.behind {place : Nat} {fault : Error}
    (takes : Takes fields.isEmpty field.kind value)
    (stops : Stops layout fields values place fault) :
    Stops layout (field :: fields) (value :: values) (place + 1) fault where
  takes := by
    intro earlier isLast other another before meets
    cases earlier with
    | zero =>
      rcases meets_zero.mp meets with ⟨rfl, rfl, rfl⟩
      exact takes
    | succ earlier =>
      exact stops.takes earlier _ _ _ (Nat.lt_of_succ_lt_succ before) (meets_succ.mp meets)
  refuses := by
    rcases stops.refuses with ⟨isLast, other, another, meets, refuses⟩
    exact ⟨isLast, other, another, meets_succ.mpr meets, refuses⟩

theorem stops_zero {fault : Error} (refuses : Refuses layout fields.isEmpty field value fault) :
    Stops layout (field :: fields) (value :: values) 0 fault where
  takes := nofun
  refuses := ⟨_, field, value, meets_zero.mpr ⟨rfl, rfl, rfl⟩, refuses⟩

theorem TakesAll.behind (takes : Takes fields.isEmpty field.kind value)
    (all : TakesAll fields values) : TakesAll (field :: fields) (value :: values) := by
  intro place isLast other another meets
  cases place with
  | zero =>
    rcases meets_zero.mp meets with ⟨rfl, rfl, rfl⟩
    exact takes
  | succ place => exact all place _ _ _ (meets_succ.mp meets)

end

/-- How writing some values into as many fields can end. -/
inductive WriteEnds (layout : String) (fields : List Field) (values : List Value) : Attempt → Prop
  | whole (all : TakesAll fields values) :
      WriteEnds layout fields values ⟨octetsBefore fields values fields.length, none⟩
  | stopped (place : Nat) (fault : Error) (stops : Stops layout fields values place fault) :
      WriteEnds layout fields values ⟨octetsBefore fields values place, some fault⟩

theorem WriteEnds.behind {layout : String} {field : Field} {fields : List Field} {value : Value}
    {values : List Value} {attempt : Attempt} (takes : Takes fields.isEmpty field.kind value)
    (ends : WriteEnds layout fields values attempt) :
    WriteEnds layout (field :: fields) (value :: values)
      ⟨octetsIn field.kind value ++ attempt.written, attempt.fault⟩ := by
  cases ends with
  | whole all => exact .whole (all.behind takes)
  | stopped place fault stops => exact .stopped (place + 1) fault (stops.behind takes)

theorem writeFields_ends (layout : String) {fields : List Field} {values : List Value}
    (counted : values.length = fields.length) :
    WriteEnds layout fields values (writeFields layout fields values) := by
  induction fields generalizing values with
  | nil => exact .whole nofun
  | cons field fields ih =>
    cases values with
    | nil => cases counted
    | cons value values =>
      rcases takes_or_refuses layout fields.isEmpty field value with takes | ⟨fault, refuses⟩
      · simp only [writeFields, writeField_of_takes layout takes]
        exact (ih (Nat.succ.inj counted)).behind takes
      · simp only [writeFields, writeField_of_refuses refuses]
        exact .stopped 0 fault (stops_zero refuses)

/-! ## Into a buffer -/

/-- Writes values into a buffer that is handed on from field to field.  A field that refuses
its value leaves the buffer as it finds it. -/
def writeInto (layout : String) : Bytes → List Field → List Value → Attempt
  | buffer, field :: fields, value :: values =>
    match writeField layout fields.isEmpty field value with
    | .ok octets => writeInto layout (buffer ++ octets) fields values
    | .error fault => ⟨buffer, some fault⟩
  | buffer, _, _ => ⟨buffer, none⟩

theorem writeInto_eq (layout : String) (buffer : Bytes) (fields : List Field)
    (values : List Value) :
    writeInto layout buffer fields values =
      ⟨buffer ++ (writeFields layout fields values).written,
        (writeFields layout fields values).fault⟩ := by
  induction fields generalizing buffer values with
  | nil => simp only [writeInto, writeFields, List.append_nil]
  | cons field fields ih =>
    cases values with
    | nil => simp only [writeInto, writeFields, List.append_nil]
    | cons value values =>
      cases wrote : writeField layout fields.isEmpty field value with
      | error fault => simp only [writeInto, writeFields, wrote, List.append_nil]
      | ok octets => simp only [writeInto, writeFields, wrote, ih, List.append_assoc]

/-! ## The length of a message -/

/-- The octets in the tail of a message, if it has one. -/
def tailOctets (fields : List Field) (values : List Value) : Bytes :=
  match tailed fields, values.getLast? with
  | true, some (.bytes octets) => octets
  | _, _ => []

theorem tailOctets_of_not_tailed {fields : List Field} {values : List Value}
    (untailed : tailed fields = false) : tailOctets fields values = [] := by
  simp only [tailOctets, untailed]

theorem TakesAll.first {field : Field} {fields : List Field} {value : Value} {values : List Value}
    (all : TakesAll (field :: fields) (value :: values)) :
    Takes fields.isEmpty field.kind value :=
  all 0 _ field value (meets_zero.mpr ⟨rfl, rfl, rfl⟩)

theorem TakesAll.later {field : Field} {fields : List Field} {value : Value} {values : List Value}
    (all : TakesAll (field :: fields) (value :: values)) : TakesAll fields values := by
  intro place isLast other another meets
  exact all (place + 1) isLast other another (meets_succ.mpr meets)

/-- A message that is written whole is as long as its fields always are, and its tail.  A tail
that takes its value is last; any other field is as long as its kind says. -/
theorem length_octetsBefore {fields : List Field} {values : List Value}
    (counted : values.length = fields.length) (all : TakesAll fields values) :
    (octetsBefore fields values fields.length).length =
      widths fields + (tailOctets fields values).length := by
  induction fields generalizing values with
  | nil => rfl
  | cons field fields ih =>
    cases values with
    | nil => cases counted
    | cons value values =>
      have rest := ih (Nat.succ.inj counted) all.later
      have split : octetsBefore (field :: fields) (value :: values) (field :: fields).length =
          octetsIn field.kind value ++ octetsBefore fields values fields.length := rfl
      rw [split, widths_cons, List.length_append, rest]
      by_cases tail : field.kind = .tail
      · have takes := all.first
        rw [tail] at takes ⊢
        cases takes with
        | tail octets last =>
          have none : fields = [] := List.isEmpty_iff.mp last
          subst none
          have noValues : values = [] := List.length_eq_zero_iff.mp (Nat.succ.inj counted)
          subst noValues
          simp [tailOctets, tailed, tail, octetsIn, FieldKind.width, widths]
      · have width : (octetsIn field.kind value).length = field.kind.width :=
          length_writeField (writeField_of_takes "" all.first) tail
        have same : tailOctets (field :: fields) (value :: values) = tailOctets fields values := by
          cases fields with
          | nil =>
            have untailed : tailed [field] = false := by
              simpa only [tailed, List.getLast?_singleton, beq_eq_false_iff_ne] using tail
            rw [tailOctets_of_not_tailed untailed, tailOctets_of_not_tailed rfl]
          | cons next fields =>
            cases values with
            | nil => cases counted
            | cons another values =>
              simp only [tailOctets, tailed_cons_cons, List.getLast?_cons_cons]
        rw [width, same, Nat.add_assoc]

/-! ## Whole messages -/

section
variable {layout : Layout} {buffer : Bytes} {values : List Value}

theorem append_of_not_counted (uncounted : values.length ≠ layout.fields.length) :
    layout.append buffer values =
      ⟨buffer, some (.protocol (.valueCount layout.name layout.fields.length values.length))⟩ := by
  simp only [append, write, if_neg uncounted, List.append_nil]

theorem append_of_counted (counted : values.length = layout.fields.length) :
    layout.append buffer values =
      writeInto layout.name (buffer ++ layout.lead) layout.fields values := by
  simp only [append, write, if_pos counted, writeInto_eq, List.append_assoc]

/-- How writing as many values as there are fields behind a buffer can end. -/
inductive AppendEnds (layout : Layout) (buffer : Bytes) (values : List Value) : Attempt → Prop
  | whole (all : TakesAll layout.fields values) :
      AppendEnds layout buffer values
        ⟨buffer ++ (layout.lead ++ octetsBefore layout.fields values layout.fields.length), none⟩
  | stopped (place : Nat) (fault : Error)
      (stops : Stops layout.name layout.fields values place fault) :
      AppendEnds layout buffer values
        ⟨buffer ++ (layout.lead ++ octetsBefore layout.fields values place), some fault⟩

theorem append_ends (buffer : Bytes) (counted : values.length = layout.fields.length) :
    AppendEnds layout buffer values (layout.append buffer values) := by
  rw [append_of_counted counted, writeInto_eq, List.append_assoc]
  have ends := writeFields_ends layout.name counted
  generalize writeFields layout.name layout.fields values = attempt at ends
  cases ends with
  | whole all => exact .whole all
  | stopped place fault stops => exact .stopped place fault stops

theorem append_of_stops (counted : values.length = layout.fields.length) {place : Nat}
    {fault : Error} (stops : Stops layout.name layout.fields values place fault) :
    layout.append buffer values =
      ⟨buffer ++ (layout.lead ++ octetsBefore layout.fields values place), some fault⟩ := by
  have ends := append_ends buffer counted
  generalize layout.append buffer values = attempt at ends
  cases ends with
  | whole all =>
    rcases stops.refuses with ⟨isLast, field, value, meets, refuses⟩
    exact ((all place isLast field value meets).not_refuses refuses).elim
  | stopped other another again =>
    rcases stops.unique again with ⟨rfl, rfl⟩
    rfl

end

/-- Some field refuses its value. -/
def Blocked (layout : Layout) (values : List Value) : Prop :=
  ∃ place isLast field value cause, Meets layout.fields values place isLast field value ∧
    Refuses layout.name isLast field value cause

/-- Where some field refuses its value, one is the first. -/
theorem blocked_iff {layout : Layout} {values : List Value}
    (counted : values.length = layout.fields.length) :
    layout.Blocked values ↔ ∃ fault place, Stops layout.name layout.fields values place fault := by
  constructor
  · rintro ⟨place, isLast, field, value, cause, meets, refuses⟩
    have ends := writeFields_ends layout.name counted
    generalize writeFields layout.name layout.fields values = attempt at ends
    cases ends with
    | whole all => exact ((all place isLast field value meets).not_refuses refuses).elim
    | stopped first fault stops => exact ⟨fault, first, stops⟩
  · rintro ⟨fault, place, stops⟩
    rcases stops.refuses with ⟨isLast, field, value, meets, refuses⟩
    exact ⟨place, isLast, field, value, fault, meets, refuses⟩

/-- What a message leaves in the buffer it is written to.  Without one value to a field that is
nothing.  Otherwise what the buffer held stays in front, as it is handed on from field to field,
and writing fails exactly if some field refuses its value.  The first such field gives the
fault, which names a number that is too large for one or two octets or else a breach of the
format, and the lead and the fields before it are all that is added.  When writing does not
fail, the whole message is added, as long as its layout says and its tail. -/
theorem append_leaves (layout : Layout) (buffer : Bytes) (values : List Value) :
    (values.length ≠ layout.fields.length → layout.append buffer values =
      ⟨buffer, some (.protocol (.valueCount layout.name layout.fields.length values.length))⟩) ∧
    (values.length = layout.fields.length →
      layout.append buffer values =
        writeInto layout.name (buffer ++ layout.lead) layout.fields values ∧
      ((∃ fault, (layout.append buffer values).fault = some fault) ↔ layout.Blocked values) ∧
      (∀ fault, (layout.append buffer values).fault = some fault ↔
        ∃ place, Stops layout.name layout.fields values place fault) ∧
      (∀ place fault, Stops layout.name layout.fields values place fault →
        layout.append buffer values =
          ⟨buffer ++ (layout.lead ++ octetsBefore layout.fields values place), some fault⟩ ∧
        ∀ isLast field value, Meets layout.fields values place isLast field value →
          (Overflows field.kind value → ∃ n, value = .int n ∧
            fault = .fieldOverflow field.name n) ∧
          (¬ Overflows field.kind value → ∃ cause, fault = .protocol cause)) ∧
      ((layout.append buffer values).fault = none → ∃ message,
        layout.append buffer values = ⟨buffer ++ message, none⟩ ∧
        message = layout.lead ++ octetsBefore layout.fields values layout.fields.length ∧
        message.length = layout.fixedLength + (tailOctets layout.fields values).length)) := by
  refine ⟨append_of_not_counted, ?_⟩
  intro counted
  have stops_iff : ∀ fault, (layout.append buffer values).fault = some fault ↔
      ∃ place, Stops layout.name layout.fields values place fault := by
    intro fault
    constructor
    · intro failed
      have ends := append_ends buffer counted
      generalize layout.append buffer values = attempt at ends failed
      cases ends with
      | whole all => cases failed
      | stopped place other stops =>
        cases failed
        exact ⟨place, stops⟩
    · rintro ⟨place, stops⟩
      rw [append_of_stops counted stops]
  refine ⟨append_of_counted counted, ?_, stops_iff, ?_, ?_⟩
  · rw [blocked_iff counted]
    exact exists_congr stops_iff
  · intro place fault stops
    refine ⟨append_of_stops counted stops, ?_⟩
    intro isLast field value meets
    rcases stops.refuses with ⟨isOther, other, another, met, refuses⟩
    cases meets.field.symm.trans met.field
    cases meets.value.symm.trans met.value
    rcases refuses.class_eq with ⟨overflows, named⟩ | ⟨fits, broken⟩
    · exact ⟨fun _ => named, fun fits => absurd overflows fits⟩
    · exact ⟨fun overflows => absurd overflows fits, fun _ => broken⟩
  · intro whole
    have ends := append_ends buffer counted
    generalize layout.append buffer values = attempt at ends whole
    cases ends with
    | stopped place fault stops => cases whole
    | whole all =>
      refine ⟨_, rfl, rfl, ?_⟩
      rw [List.length_append, length_octetsBefore counted all, fixedLength, Nat.add_assoc]

/-- A lead, two words, a tail that is not last, and a block. -/
def tailBeforeBlock : Layout where
  name := "sample"
  lead := [0xab]
  fields := [⟨"a", .word .u8⟩, ⟨"b", .word .u16be⟩, ⟨"rest", .tail⟩, ⟨"c", .fixed 2⟩]

/-- Without its block, the layout has the tail in its place. -/
def tailAtEnd : Layout := { tailBeforeBlock with fields := tailBeforeBlock.fields.dropLast }

theorem append_leaves_tail_or_number :
    tailAtEnd.append [9] [.int 1] = ⟨[9], some (.protocol (.valueCount "sample" 3 1))⟩ ∧
    tailAtEnd.append [9] [.int 1, .int 70000, .int 0] =
      ⟨[9, 0xab, 1], some (.fieldOverflow "b" 70000)⟩ ∧
    tailBeforeBlock.append [9] [.int 1, .int 0x203, .int 0, .bytes []] =
      ⟨[9, 0xab, 1, 2, 3], some (.protocol (.misplacedTail "sample" "rest"))⟩ ∧
    ∃ message, tailAtEnd.append [9] [.int 1, .int 0x203, .bytes [4, 5]] = ⟨[9] ++ message, none⟩ ∧
      message = [0xab, 1, 2, 3, 4, 5] ∧ message.length = 4 + 2 := by
  have first : ∀ {fields : List Field}, Takes fields.isEmpty (.word .u8) (.int 1) :=
    .number .u8 1 (by decide)
  have large : Stops "sample" tailAtEnd.fields [.int 1, .int 70000, .int 0] 1
      (.fieldOverflow "b" 70000) :=
    (stops_zero (.tooLarge .u16be 70000 rfl (by decide))).behind first
  have misplaced : Stops "sample" tailBeforeBlock.fields [.int 1, .int 0x203, .int 0, .bytes []] 2
      (.protocol (.misplacedTail "sample" "rest")) :=
    ((stops_zero (.misplaced _ rfl rfl)).behind (.number .u16be 0x203 (by decide))).behind first
  refine ⟨?_, ?_, ?_, ?_⟩
  · exact (append_leaves tailAtEnd [9] [.int 1]).1 (by decide)
  · exact (((append_leaves tailAtEnd [9] _).2 rfl).2.2.2.1 1 _ large).1
  · exact (((append_leaves tailBeforeBlock [9] _).2 rfl).2.2.2.1 2 _ misplaced).1
  · rcases ((append_leaves tailAtEnd [9] [.int 1, .int 0x203, .bytes [4, 5]]).2 rfl).2.2.2.2 rfl
      with ⟨message, wrote, rfl, length⟩
    exact ⟨_, wrote, rfl, length⟩

end Layout
end Wire
end FirmwareGateway
