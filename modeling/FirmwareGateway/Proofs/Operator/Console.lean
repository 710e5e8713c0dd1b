import FirmwareGateway.Operator.Action
import FirmwareGateway.Proofs.Text.Hexadecimal
import FirmwareGateway.Proofs.Text.Numerals
import FirmwareGateway.Proofs.Text.Words

namespace FirmwareGateway
namespace Operator
namespace Action

/-!
# The language of the console

`Means` is the grammar: which words ask for which action.  A line asks for an action exactly if
its words do, so of the white space in it nothing matters but where it separates words.  There is
one exception.  Words that have the form of no command are refused with the line quoted, and the
quotation keeps the white space inside the line.
-/

/-- Words put together to a line. -/
def Spelled (words : List String) (line : String) : Prop :=
  Text.Spells (words.map String.toList) line.toList

/-- A word is the decimal numeral of a client. -/
def NamesClient (word : String) (client : UInt64) : Prop :=
  Text.IsNumeral UInt64.size word.toList client.toNat

/-- A word is the decimal numeral of a node. -/
def NamesNode (word : String) (node : UInt16) : Prop :=
  Text.IsNumeral UInt16.size word.toList node.toNat

/-- What words ask for. -/
inductive Means : List String → Action → Prop
  | list : Means ["list"] .list
  | relayBridge {number path : String} {client : UInt64} (names : NamesClient number client) :
      Means ["relay", "bridge", number, path] (.relay client .bridge path)
  | relayCoprocessor {number path : String} {client : UInt64} (names : NamesClient number client) :
      Means ["relay", "ncp", number, path] (.relay client .coprocessor path)
  | relayNode {number nodeNumber path : String} {client : UInt64} {node : UInt16}
      (names : NamesClient number client) (namesNode : NamesNode nodeNumber node) :
      Means ["relay", "node", number, nodeNumber, path] (.relay client (.node node) path)
  | forward {number nodeNumber digits : String} {client : UInt64} {node : UInt16} {payload : Bytes}
      (names : NamesClient number client) (namesNode : NamesNode nodeNumber node)
      (spells : Text.SpellsOctets digits.toList payload) :
      Means ["forward", number, nodeNumber, digits] (.forward client node payload false)
  | forwardSecure {number nodeNumber digits : String} {client : UInt64} {node : UInt16}
      {payload : Bytes} (names : NamesClient number client) (namesNode : NamesNode nodeNumber node)
      (spells : Text.SpellsOctets digits.toList payload) :
      Means ["forward", number, nodeNumber, digits, "secure"] (.forward client node payload true)

/-! ## Reading the words -/

theorem readNumber_eq_ok_iff {limit : Nat} (positive : 0 < limit) {word : String} {n : Nat} :
    readNumber limit word = .ok n ↔ Text.IsNumeral limit word.toList n := by
  rw [← Text.readNumeral_eq_ok_iff positive, readNumber]
  cases Text.readNumeral 10 limit word.toList with
  | ok m => simp only [Except.ok.injEq]
  | error fault => simp only [reduceCtorEq]

/-- A number that is taken down in a word is read exactly if the word holds it. -/
theorem map_readNumber_eq_ok_iff {α : Type} {limit : Nat} (positive : 0 < limit)
    {ofNat : Nat → α} {toNat : α → Nat} (ofNat_toNat : ∀ value, ofNat (toNat value) = value)
    (toNat_ofNat : ∀ n < limit, toNat (ofNat n) = n) {word : String} {value : α} :
    (readNumber limit word).map ofNat = .ok value ↔
      Text.IsNumeral limit word.toList (toNat value) := by
  rw [← readNumber_eq_ok_iff positive]
  cases read : readNumber limit word with
  | ok n =>
    have small := ((readNumber_eq_ok_iff positive).mp read).small
    simp only [Except.map, Except.ok.injEq]
    constructor
    · rintro rfl
      exact (toNat_ofNat n small).symm
    · rintro rfl
      exact ofNat_toNat value
  | error fault => simp only [Except.map, reduceCtorEq]

theorem readClient_eq_ok_iff {word : String} {client : UInt64} :
    readClient word = .ok client ↔ NamesClient word client :=
  map_readNumber_eq_ok_iff (by decide) (fun _ => UInt64.ofNat_toNat)
    (fun _ => UInt64.toNat_ofNat_of_lt')

theorem readNode_eq_ok_iff {word : String} {node : UInt16} :
    readNode word = .ok node ↔ NamesNode word node :=
  map_readNumber_eq_ok_iff (by decide) (fun _ => UInt16.ofNat_toNat)
    (fun _ => UInt16.toNat_ofNat_of_lt')

theorem readPayload_eq_ok_iff {word : String} {payload : Bytes} :
    readPayload word = .ok payload ↔ Text.SpellsOctets word.toList payload := by
  rw [← Text.readHex_utf8_eq_ok_iff, readPayload]
  cases Text.readHex (Text.utf8 word.toList) with
  | ok octets => simp only [Except.ok.injEq]
  | error fault => simp only [reduceCtorEq]

theorem bind_eq_ok_iff {α β : Type} {first : Except Error α} {next : α → Except Error β}
    {value : β} :
    first >>= next = .ok value ↔ ∃ found, first = .ok found ∧ next found = .ok value := by
  cases first with
  | ok found =>
    constructor
    · exact fun came => ⟨found, rfl, came⟩
    · rintro ⟨_, ⟨⟩, came⟩
      exact came
  | error fault => exact iff_of_false nofun nofun

theorem readForward_eq_ok_iff {number nodeNumber digits : String} {secure : Bool}
    {action : Action} :
    readForward number nodeNumber digits secure = .ok action ↔
      ∃ client node payload, NamesClient number client ∧ NamesNode nodeNumber node ∧
        Text.SpellsOctets digits.toList payload ∧
        action = .forward client node payload secure := by
  simp only [readForward, bind_eq_ok_iff, readClient_eq_ok_iff, readNode_eq_ok_iff,
    readPayload_eq_ok_iff]
  constructor
  · rintro ⟨client, names, node, namesNode, payload, spells, ⟨⟩⟩
    exact ⟨client, node, payload, names, namesNode, spells, rfl⟩
  · rintro ⟨client, node, payload, names, namesNode, spells, rfl⟩
    exact ⟨client, names, node, namesNode, payload, spells, rfl⟩

theorem means_of_ofWords {unknown : Error} {words : List String} {action : Action} :
    ofWords unknown words = .ok action → Means words action := by
  fun_cases ofWords unknown words with
  | case1 =>
    rintro ⟨⟩
    exact .list
  | case2 number path =>
    intro read
    rcases bind_eq_ok_iff.mp read with ⟨client, names, ⟨⟩⟩
    exact .relayBridge (readClient_eq_ok_iff.mp names)
  | case3 number path =>
    intro read
    rcases bind_eq_ok_iff.mp read with ⟨client, names, ⟨⟩⟩
    exact .relayCoprocessor (readClient_eq_ok_iff.mp names)
  | case4 number nodeNumber path =>
    intro read
    rcases bind_eq_ok_iff.mp read with ⟨client, names, read⟩
    rcases bind_eq_ok_iff.mp read with ⟨node, namesNode, ⟨⟩⟩
    exact .relayNode (readClient_eq_ok_iff.mp names) (readNode_eq_ok_iff.mp namesNode)
  | case5 number nodeNumber digits =>
    intro read
    rcases readForward_eq_ok_iff.mp read with ⟨client, node, payload, names, namesNode, spells, rfl⟩
    exact .forward names namesNode spells
  | case6 number nodeNumber digits =>
    intro read
    rcases readForward_eq_ok_iff.mp read with ⟨client, node, payload, names, namesNode, spells, rfl⟩
    exact .forwardSecure names namesNode spells
  | case7 => exact nofun

theorem ofWords_of_means {unknown : Error} {words : List String} {action : Action}
    (means : Means words action) : ofWords unknown words = .ok action := by
  cases means with
  | list => rfl
  | relayBridge names =>
    exact bind_eq_ok_iff.mpr ⟨_, readClient_eq_ok_iff.mpr names, rfl⟩
  | relayCoprocessor names =>
    exact bind_eq_ok_iff.mpr ⟨_, readClient_eq_ok_iff.mpr names, rfl⟩
  | relayNode names namesNode =>
    exact bind_eq_ok_iff.mpr ⟨_, readClient_eq_ok_iff.mpr names,
      bind_eq_ok_iff.mpr ⟨_, readNode_eq_ok_iff.mpr namesNode, rfl⟩⟩
  | forward names namesNode spells =>
    exact readForward_eq_ok_iff.mpr ⟨_, _, _, names, namesNode, spells, rfl⟩
  | forwardSecure names namesNode spells =>
    exact readForward_eq_ok_iff.mpr ⟨_, _, _, names, namesNode, spells, rfl⟩

/-- Words are read as an action exactly if they ask for it. -/
theorem ofWords_eq_ok_iff {unknown : Error} {words : List String} {action : Action} :
    ofWords unknown words = .ok action ↔ Means words action :=
  ⟨means_of_ofWords, ofWords_of_means⟩

/-- What is said of words that have the form of no command is all that can differ between two
readings of the same words. -/
theorem ofWords_congr (unknown other : Error) (words : List String) :
    ofWords unknown words = ofWords other words ∨
      ofWords unknown words = .error unknown ∧ ofWords other words = .error other := by
  fun_cases ofWords unknown words with
  | case7 =>
    right
    refine ⟨rfl, ?_⟩
    rw [ofWords] <;> assumption
  | _ => exact Or.inl rfl

/-! ## Failures of reading -/

/-- If reading fails, something written is at fault. -/
def Blames {α : Type} (result : Except Error α) : Prop :=
  ∀ fault, result = .error fault → ∃ cause, fault = .configuration cause

theorem Blames.bind {α β : Type} {first : Except Error α} {next : α → Except Error β}
    (blames : Blames first) (later : ∀ found, Blames (next found)) : Blames (first >>= next) := by
  cases first with
  | ok found => exact later found
  | error cause =>
    rintro fault ⟨⟩
    exact blames cause rfl

theorem Blames.map {α β : Type} {result : Except Error α} (blames : Blames result) (f : α → β) :
    Blames (result.map f) := by
  cases result with
  | ok value => exact nofun
  | error cause =>
    rintro fault ⟨⟩
    exact blames cause rfl

theorem blames_ok {α : Type} (value : α) : Blames (.ok value) :=
  nofun

theorem blames_readNumber (limit : Nat) (word : String) : Blames (readNumber limit word) := by
  rw [readNumber]
  cases Text.readNumeral 10 limit word.toList with
  | ok n => exact blames_ok n
  | error cause =>
    rintro fault ⟨⟩
    exact ⟨_, rfl⟩

theorem blames_readClient (word : String) : Blames (readClient word) :=
  (blames_readNumber UInt64.size word).map UInt64.ofNat

theorem blames_readNode (word : String) : Blames (readNode word) :=
  (blames_readNumber UInt16.size word).map UInt16.ofNat

theorem blames_readPayload (word : String) : Blames (readPayload word) := by
  rw [readPayload]
  cases Text.readHex (Text.utf8 word.toList) with
  | ok payload => exact blames_ok payload
  | error cause =>
    rintro fault ⟨⟩
    exact ⟨_, rfl⟩

theorem blames_readForward (number nodeNumber digits : String) (secure : Bool) :
    Blames (readForward number nodeNumber digits secure) :=
  (blames_readClient number).bind fun _ => (blames_readNode nodeNumber).bind fun _ =>
    (blames_readPayload digits).bind fun _ => blames_ok _

theorem blames_ofWords (cause : ConfigurationFault) (words : List String) :
    Blames (ofWords (.configuration cause) words) := by
  fun_cases ofWords (.configuration cause) words with
  | case1 => exact blames_ok _
  | case2 number path => exact (blames_readClient number).bind fun _ => blames_ok _
  | case3 number path => exact (blames_readClient number).bind fun _ => blames_ok _
  | case4 number nodeNumber path =>
    exact (blames_readClient number).bind fun _ => (blames_readNode nodeNumber).bind fun _ =>
      blames_ok _
  | case5 number nodeNumber digits => exact blames_readForward number nodeNumber digits false
  | case6 number nodeNumber digits => exact blames_readForward number nodeNumber digits true
  | case7 =>
    rintro fault ⟨⟩
    exact ⟨cause, rfl⟩

/-! ## Reading a line -/

/-- What is said of a line whose words have the form of no command. -/
def unrecognised (line : String) : Error :=
  .configuration (.command (String.ofList (Text.trim line.toList)))

theorem map_toList_map_ofList (words : List (List Char)) :
    (words.map String.ofList).map String.toList = words := by
  simp only [List.map_map, Function.comp_def, String.toList_ofList, List.map_id_fun']
  rfl

theorem map_ofList_map_toList (words : List String) :
    (words.map String.toList).map String.ofList = words := by
  simp only [List.map_map, Function.comp_def, String.ofList_toList, List.map_id_fun']
  rfl

theorem spelled_iff {words : List String} {line : String} :
    Spelled words line ↔ (Text.words line.toList).map String.ofList = words := by
  rw [Spelled, ← Text.words_eq_iff_spells]
  constructor
  · intro read
    rw [read, map_ofList_map_toList]
  · rintro rfl
    rw [map_toList_map_ofList]

/-- A line is put together from some words, and from no others. -/
theorem existsUnique_spelled (line : String) : ∃! words, Spelled words line :=
  ⟨_, spelled_iff.mpr rfl, fun _ spelled => (spelled_iff.mp spelled).symm⟩

/-- Words can be put together to a line. -/
theorem exists_spelled {words : List String} (isWord : ∀ word ∈ words, Text.IsWord word.toList) :
    ∃ line, Spelled words line := by
  have blank : Text.isBlank ' ' = true := rfl
  refine ⟨String.ofList ((words.map String.toList).flatMap (' ' :: ·)), ?_⟩
  rw [Spelled, String.toList_ofList]
  exact Text.spells_spaced blank (List.forall_mem_map.mpr isWord)

theorem parse_of_spelled {words : List String} {line : String} (spelled : Spelled words line) :
    parse line = ofWords (unrecognised line) words := by
  rw [← spelled_iff.mp spelled]
  rfl

/-! ## Writing -/

/-- The words of an action, with zeros in front of its numbers and `digits` to spell octets. -/
def written (clientZeros nodeZeros : Nat) (digits : Bytes → List Char) : Action → List String
  | .list => ["list"]
  | .relay client .bridge path =>
    ["relay", "bridge", String.ofList (Text.decimal clientZeros client.toNat), path]
  | .relay client .coprocessor path =>
    ["relay", "ncp", String.ofList (Text.decimal clientZeros client.toNat), path]
  | .relay client (.node node) path =>
    ["relay", "node", String.ofList (Text.decimal clientZeros client.toNat),
      String.ofList (Text.decimal nodeZeros node.toNat), path]
  | .forward client node payload false =>
    ["forward", String.ofList (Text.decimal clientZeros client.toNat),
      String.ofList (Text.decimal nodeZeros node.toNat), String.ofList (digits payload)]
  | .forward client node payload true =>
    ["forward", String.ofList (Text.decimal clientZeros client.toNat),
      String.ofList (Text.decimal nodeZeros node.toNat), String.ofList (digits payload), "secure"]

/-- An action can be written on a line if its path is a word or its payload is not empty. -/
def Writable : Action → Prop
  | .list => True
  | .relay _ _ path => Text.IsWord path.toList
  | .forward _ _ payload _ => payload ≠ []

theorem means_written (clientZeros nodeZeros : Nat) {digits : Bytes → List Char}
    (spells : ∀ payload, Text.SpellsOctets (digits payload) payload) (action : Action) :
    Means (action.written clientZeros nodeZeros digits) action := by
  have client : ∀ client : UInt64,
      NamesClient (String.ofList (Text.decimal clientZeros client.toNat)) client := by
    intro client
    rw [NamesClient, String.toList_ofList]
    exact .unsigned (Text.denotes_decimal clientZeros client.toNat_lt_size)
  have node : ∀ node : UInt16,
      NamesNode (String.ofList (Text.decimal nodeZeros node.toNat)) node := by
    intro node
    rw [NamesNode, String.toList_ofList]
    exact .unsigned (Text.denotes_decimal nodeZeros node.toNat_lt_size)
  have octets : ∀ payload, Text.SpellsOctets (String.ofList (digits payload)).toList payload := by
    intro payload
    rw [String.toList_ofList]
    exact spells payload
  fun_cases action.written clientZeros nodeZeros digits with
  | case1 => exact .list
  | case2 => exact .relayBridge (client _)
  | case3 => exact .relayCoprocessor (client _)
  | case4 => exact .relayNode (client _) (node _)
  | case5 => exact .forward (client _) (node _) (octets _)
  | case6 => exact .forwardSecure (client _) (node _) (octets _)

theorem isWord_written (clientZeros nodeZeros : Nat) {digits : Bytes → List Char}
    (spells : ∀ payload, Text.SpellsOctets (digits payload) payload) {action : Action}
    (writable : action.Writable) :
    ∀ word ∈ action.written clientZeros nodeZeros digits, Text.IsWord word.toList := by
  have decimal : ∀ zeros n, Text.IsWord (String.ofList (Text.decimal zeros n)).toList := by
    intro zeros n
    rw [String.toList_ofList]
    exact (Text.denotes_decimal zeros (Nat.lt_succ_self n)).isWord
  have octets : ∀ payload, payload ≠ [] →
      Text.IsWord (String.ofList (digits payload)).toList := by
    intro payload nonempty
    rw [String.toList_ofList]
    exact (spells payload).isWord nonempty
  have keyword : ∀ word ∈ ["list", "relay", "bridge", "ncp", "node", "forward", "secure"],
      Text.IsWord word.toList := by
    decide
  fun_cases action.written clientZeros nodeZeros digits with
  | case1 =>
    simp only [List.forall_mem_cons]
    exact ⟨keyword _ (by simp), List.forall_mem_nil _⟩
  | case2 client path =>
    simp only [List.forall_mem_cons]
    exact ⟨keyword _ (by simp), keyword _ (by simp), decimal _ _, writable, List.forall_mem_nil _⟩
  | case3 client path =>
    simp only [List.forall_mem_cons]
    exact ⟨keyword _ (by simp), keyword _ (by simp), decimal _ _, writable, List.forall_mem_nil _⟩
  | case4 client node path =>
    simp only [List.forall_mem_cons]
    exact ⟨keyword _ (by simp), keyword _ (by simp), decimal _ _, decimal _ _, writable,
      List.forall_mem_nil _⟩
  | case5 client node payload =>
    simp only [List.forall_mem_cons]
    exact ⟨keyword _ (by simp), decimal _ _, decimal _ _, octets payload writable,
      List.forall_mem_nil _⟩
  | case6 client node payload =>
    simp only [List.forall_mem_cons]
    exact ⟨keyword _ (by simp), decimal _ _, decimal _ _, octets payload writable,
      keyword _ (by simp), List.forall_mem_nil _⟩

/-! ## What the console understands -/

/-- A line is put together from its words in one way.  It asks for an action exactly if its words
do, and otherwise something written is blamed.  Lines of the same words are read alike, except
that each is quoted where these have the form of no command.  Every action that can be written is
read from each line on which it is, whatever zeros are in front of its numbers, however its octets
are spelled and whatever white space separates its words. -/
theorem parse_follows_grammar :
    (∀ line, ∃! words, Spelled words line) ∧
    (∀ line action, parse line = .ok action ↔ ∃ words, Spelled words line ∧ Means words action) ∧
    (∀ line, (¬ ∃ words action, Spelled words line ∧ Means words action) →
      ∃ cause, parse line = .error (.configuration cause)) ∧
    (∀ words line other, Spelled words line → Spelled words other →
      parse line = parse other ∨
        parse line = .error (unrecognised line) ∧ parse other = .error (unrecognised other)) ∧
    ∀ (action : Action) (clientZeros nodeZeros : Nat) (digits : Bytes → List Char),
      action.Writable → (∀ payload, Text.SpellsOctets (digits payload) payload) →
      (∃ line, Spelled (action.written clientZeros nodeZeros digits) line) ∧
      ∀ line, Spelled (action.written clientZeros nodeZeros digits) line →
        parse line = .ok action := by
  have read : ∀ line action,
      parse line = .ok action ↔ ∃ words, Spelled words line ∧ Means words action := by
    intro line action
    rcases existsUnique_spelled line with ⟨words, spelled, unique⟩
    rw [parse_of_spelled spelled, ofWords_eq_ok_iff]
    constructor
    · exact fun means => ⟨words, spelled, means⟩
    · rintro ⟨others, also, means⟩
      exact unique others also ▸ means
  refine ⟨existsUnique_spelled, read, ?_, ?_, ?_⟩
  · intro line meaningless
    have blames : Blames (parse line) := blames_ofWords _ _
    cases came : parse line with
    | ok action =>
      rcases (read line action).mp came with ⟨words, spelled, means⟩
      exact absurd ⟨words, action, spelled, means⟩ meaningless
    | error fault =>
      rcases blames fault came with ⟨cause, rfl⟩
      exact ⟨cause, rfl⟩
  · intro words line other spelled also
    rw [parse_of_spelled spelled, parse_of_spelled also]
    exact ofWords_congr _ _ words
  · intro action clientZeros nodeZeros digits writable spells
    have isWord := isWord_written clientZeros nodeZeros spells writable
    refine ⟨exists_spelled isWord, ?_⟩
    intro line spelled
    exact (read line action).mpr ⟨_, spelled, means_written clientZeros nodeZeros spells action⟩

/-- A line in which numbers have a sign and zeros in front and octets digits of either case, and
an action on a line with white space outside ASCII. -/
theorem parse_follows_grammar_signed_and_written :
    parse " forward\t+007  0005 25aB\nsecure" = .ok (.forward 7 5 [0x25, 0xab] true) ∧
    parse "relay\u00a0node 0012 5\u30004.gbl" = .ok (.relay 12 (.node 5) "4.gbl") := by
  constructor
  · have spelled : Spelled ["forward", "+007", "0005", "25aB", "secure"]
        " forward\t+007  0005 25aB\nsecure" := spelled_iff.mpr (by decide)
    have client : NamesClient "+007" 7 :=
      .signed ⟨by decide, List.all_eq_true.mp rfl, by decide, by decide⟩
    have node : NamesNode "0005" 5 :=
      .unsigned ⟨by decide, List.all_eq_true.mp rfl, by decide, by decide⟩
    have octets : Text.SpellsOctets "25aB".toList [0x25, 0xab] :=
      .octet (by decide) (by decide) (.octet (by decide) (by decide) .none)
    exact (parse_follows_grammar.2.1 _ _).mpr ⟨_, spelled, .forwardSecure client node octets⟩
  · have writable : Writable (.relay 12 (.node 5) "4.gbl") :=
      (by decide : Text.IsWord "4.gbl".toList)
    have line := parse_follows_grammar.2.2.2.2 _ 2 0 (·.flatMap Text.hexPair) writable
      Text.spellsOctets_hexPairs
    exact line.2 _ (spelled_iff.mpr (by decide))

/-- Two lines of the same words that have the form of no command. -/
theorem not_parse_alike :
    ¬ ∀ words line other, Spelled words line → Spelled words other → parse line = parse other := by
  intro alike
  have same : parse "a  b" = parse "a b" :=
    alike ["a", "b"] _ _ (spelled_iff.mpr (by decide)) (spelled_iff.mpr (by decide))
  have quoted : unrecognised "a  b" = unrecognised "a b" := Except.error.inj same
  revert quoted
  decide

end Action
end Operator
end FirmwareGateway
