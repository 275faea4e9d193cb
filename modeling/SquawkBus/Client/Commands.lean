import SquawkBus.Client.SquawkbusClient

/-!
# What the user types

A line asks for a request: the command, and behind it a topic or a pattern, or the fields of what is to
be published. A field of `PUBLISH` may be put in quotes, and then holds any bytes. `Asks` is the usage
text made precise; the client sends what a line asks for (`handleCommand_of_asks`).
-/

namespace SquawkBus.Client

open SquawkBus.Messages SquawkBus.Server

/-! ## Lines -/

/-- A field of `PUBLISH`, bare or in quotes, and what it stands for. -/
inductive Field : Bytes → Bytes → Prop
  | bare (w : Bytes) (hword : TextInput.IsWord isSpace w) (hbare : ∀ c ∈ w.head?, c ≠ 34) : Field w w
  | quoted (s : Bytes) : Field (TextInput.quote 34 92 s) s

/-- Spaces in front of a field. -/
structure Gap (gap : Bytes) : Prop where
  ne_nil : gap ≠ []
  spaces : ∀ c ∈ gap, isSpace c

/-- What may follow the content: a content type, and then an entitlement. -/
inductive PublishOptions : Bytes → Option Bytes → Option Int32 → Prop
  | none (rest : Bytes) (hrest : ∀ c ∈ rest, isSpace c) : PublishOptions rest none none
  | contentType {gap text value rest : Bytes} (hgap : Gap gap) (hfield : Field text value)
      (hrest : ∀ c ∈ rest, isSpace c) : PublishOptions (gap ++ (text ++ rest)) (some value) none
  | entitlement {gap text value gap' rest : Bytes} {numeral : Numeral} (hgap : Gap gap)
      (hfield : Field text value) (hgap' : Gap gap') (hrest : ∀ c ∈ rest.head?, isDigit c = false) :
      PublishOptions (gap ++ (text ++ (gap' ++ (numeral.text ++ rest)))) (some value) (some numeral.value)

/-- The commands that take a word. -/
def wordCommands : List (Bytes × (Bytes → Message)) :=
  [(ascii "SUBSCRIBE", fun topic => .subscriptionRequest ⟨topic, true⟩),
    (ascii "UNSUBSCRIBE", fun topic => .subscriptionRequest ⟨topic, false⟩),
    (ascii "LISTEN", fun pattern => .notificationRequest ⟨pattern, true⟩),
    (ascii "UNLISTEN", fun pattern => .notificationRequest ⟨pattern, false⟩)]

/-- The content type when there is none, or an empty one. -/
def contentTypeOr (contentType : Option Bytes) : Bytes :=
  if (contentType.getD []).isEmpty then ascii "text/plain" else contentType.getD []

/-- The line asks for the request. -/
inductive Asks : Bytes → Message → Prop
  | word {lead gap word rest : Bytes} {command : Bytes × (Bytes → Message)}
      (hcommand : command ∈ wordCommands) (hlead : ∀ c ∈ lead, isSpace c) (hgap : Gap gap)
      (hword : TextInput.IsWord isSpace word) (hrest : TextInput.Ends isSpace rest) :
      Asks (lead ++ (command.1 ++ (gap ++ (word ++ rest)))) (command.2 word)
  | publish {lead gap topicText topic gap' contentText content rest : Bytes}
      {contentType : Option Bytes} {entitlement : Option Int32} (hlead : ∀ c ∈ lead, isSpace c)
      (hgap : Gap gap) (htopic : Field topicText topic) (hgap' : Gap gap')
      (hcontent : Field contentText content) (hoptions : PublishOptions rest contentType entitlement) :
      Asks (lead ++ (ascii "PUBLISH" ++ (gap ++ (topicText ++ (gap' ++ (contentText ++ rest))))))
        (.multicastData ⟨topic, [⟨entitlement.getD 0, contentTypeOr contentType, content⟩]⟩)

/-! ## Reading the parts -/

theorem Gap.ends {gap : Bytes} (h : Gap gap) (rest : Bytes) :
    TextInput.Ends isSpace (gap ++ rest) := by
  obtain ⟨c, gap', rfl⟩ := List.exists_cons_of_ne_nil h.ne_nil
  intro d hd
  obtain rfl : c = d := by simpa using hd
  exact h.spaces c List.mem_cons_self

theorem Gap.isEmpty_append {gap : Bytes} (h : Gap gap) (rest : Bytes) :
    (gap ++ rest).isEmpty = false := by
  obtain ⟨c, gap', rfl⟩ := List.exists_cons_of_ne_nil h.ne_nil
  rfl

theorem ends_of_spaces {rest : Bytes} (h : ∀ c ∈ rest, isSpace c) : TextInput.Ends isSpace rest :=
  fun c hc => h c (List.mem_of_mem_head? hc)

/-- A word in front of a gap is read, and the gap is left. -/
theorem extractString_of_gap {lead w gap rest : Bytes} (hlead : ∀ c ∈ lead, isSpace c)
    (hword : TextInput.IsWord isSpace w) (hgap : Gap gap) (old : Bytes) :
    extractString old (.start (lead ++ (w ++ (gap ++ rest)))) = (w, .start (gap ++ rest)) := by
  unfold extractString
  rw [TextInput.word_append hlead hword (hgap.ends rest), hgap.isEmpty_append]
  rfl

/-- A field is read as what it stands for, and what is left is the rest; it can be gone on with if there
is any. -/
theorem Field.extractQuoted_eq {text value lead rest : Bytes} (h : Field text value)
    (hlead : ∀ c ∈ lead, isSpace c) (hrest : TextInput.Ends isSpace rest) (old : Bytes) :
    ∃ good, extractQuoted old (.start (lead ++ (text ++ rest))) = (value, ⟨rest, good⟩) ∧
      (rest ≠ [] → good = true) := by
  cases h with
  | bare _ hword hbare =>
      refine ⟨!rest.isEmpty, TextInput.quoted_append hlead hword hrest hbare old, fun hne => ?_⟩
      simpa using hne
  | quoted _ =>
      exact ⟨true, TextInput.quoted_quote (by decide) (by decide) hlead old value rest, fun _ => rfl⟩

/-- In front of a gap. -/
theorem Field.extractQuoted_of_gap {text value lead gap rest : Bytes} (h : Field text value)
    (hlead : ∀ c ∈ lead, isSpace c) (hgap : Gap gap) (old : Bytes) :
    extractQuoted old (.start (lead ++ (text ++ (gap ++ rest)))) =
      (value, .start (gap ++ rest)) := by
  obtain ⟨good, heq, hgood⟩ := h.extractQuoted_eq hlead (hgap.ends rest) old
  rw [heq, hgood (by simpa using fun hnil => absurd hnil hgap.ne_nil)]
  rfl

/-! ### Numbers -/

theorem extractInt_of_spaces {input : TextInput UInt8} (h : ∀ c ∈ input.text, isSpace c)
    (old : Int32) : extractInt old input = old := by
  unfold extractInt
  rw [List.dropWhile_eq_nil_iff.mpr h]
  cases input.good <;> rfl

theorem extractInt_of_not_good {input : TextInput UInt8} (h : input.good = false) (old : Int32) :
    extractInt old input = old := by
  unfold extractInt
  rw [h]

/-- The digits in front of what is not one. -/
theorem takeWhile_digits {digits rest : Bytes} (hdigits : ∀ c ∈ digits, isDigit c)
    (hrest : ∀ c ∈ rest.head?, isDigit c = false) : (digits ++ rest).takeWhile isDigit = digits := by
  rw [List.takeWhile_append, List.takeWhile_eq_self_iff.mpr hdigits, if_pos rfl]
  cases rest with
  | nil => exact List.append_nil digits
  | cons c rest =>
      rw [List.takeWhile_cons, hrest c rfl]
      exact List.append_nil digits

theorem isWord_of_decimal {text : Bytes} {i : Int} (h : Decimal text i) :
    TextInput.IsWord isSpace text := by
  refine ⟨h.ne_nil, fun c hc => ?_⟩
  cases h with
  | natural _ _ hdigits => exact isSpace_of_isDigit (hdigits c hc)
  | negative _ _ hdigits =>
      rcases List.mem_cons.mp hc with rfl | hmem
      · decide
      · exact isSpace_of_isDigit (hdigits c hmem)

/-- The value behind the sign. -/
theorem value_of_decimal {text rest : Bytes} {i : Int} (h : Decimal text i)
    (hrest : ∀ c ∈ rest.head?, isDigit c = false) :
    (if (takeSign (text ++ rest)).1
      then -(decimalValue ((takeSign (text ++ rest)).2.takeWhile isDigit) : Int)
      else decimalValue ((takeSign (text ++ rest)).2.takeWhile isDigit)) = i := by
  cases h with
  | natural _ hne hdigits =>
      have hsign : takeSign (text ++ rest) = (false, text ++ rest) := by
        obtain ⟨d, digits, rfl⟩ := List.exists_cons_of_ne_nil hne
        exact takeSign_of_isDigit (hdigits d List.mem_cons_self) (digits ++ rest)
      rw [hsign, takeWhile_digits hdigits hrest]
      rfl
  | negative digits hne hdigits =>
      have hsign : takeSign (45 :: digits ++ rest) = (true, digits ++ rest) := rfl
      rw [hsign, takeWhile_digits hdigits hrest, if_pos rfl]

/-- **A number that is written in decimal is read.** -/
theorem extractInt_numeral {gap rest : Bytes} (hgap : Gap gap) (numeral : Numeral)
    (hrest : ∀ c ∈ rest.head?, isDigit c = false) (old : Int32) :
    extractInt old (.start (gap ++ (numeral.text ++ rest))) = numeral.value := by
  have hword := isWord_of_decimal numeral.decimal
  obtain ⟨c, text, htext⟩ : ∃ c text, numeral.text ++ rest = c :: text := by
    obtain ⟨c, text, heq⟩ := List.exists_cons_of_ne_nil hword.ne_nil
    exact ⟨c, text ++ rest, by rw [heq]; rfl⟩
  have hskip : (gap ++ (numeral.text ++ rest)).dropWhile isSpace = c :: text := by
    rw [TextInput.dropWhile_append hgap.spaces, hword.dropWhile_append, htext]
  have hclamp : max (-(2 ^ 31)) (min numeral.value.toInt (2 ^ 31 - 1)) = numeral.value.toInt := by
    have hlo := numeral.value.le_toInt
    have hhi := numeral.value.toInt_lt
    omega
  unfold extractInt TextInput.start
  simp only [hskip]
  rw [← htext, value_of_decimal numeral.decimal hrest, hclamp, Int32.ofInt_toInt]

/-! ## The commands -/

/-- What is made of the options. -/
theorem PublishOptions.extract_eq {rest : Bytes} {contentType : Option Bytes} {entitlement : Option Int32}
    (h : PublishOptions rest contentType entitlement) {good : Bool} (hgood : rest ≠ [] → good = true) :
    (extractQuoted [] ⟨rest, good⟩).1 = contentType.getD [] ∧
      extractInt 0 (extractQuoted [] ⟨rest, good⟩).2 = entitlement.getD 0 := by
  cases h with
  | none _ hrest =>
      have hspaces : ∀ c ∈ (⟨rest, good⟩ : TextInput UInt8).text, isSpace c := hrest
      obtain ⟨hold, hbad⟩ := TextInput.quoted_of_spaces hspaces []
      exact ⟨hold, extractInt_of_not_good hbad 0⟩
  | contentType hgap hfield hrest =>
      rw [hgood (by simp [hgap.ne_nil])]
      obtain ⟨good', heq, -⟩ := hfield.extractQuoted_eq hgap.spaces (ends_of_spaces hrest) []
      rw [TextInput.start] at heq
      rw [heq]
      exact ⟨rfl, extractInt_of_spaces hrest 0⟩
  | @entitlement gap text value gap' rest numeral hgap hfield hgap' hrest =>
      rw [hgood (by simp [hgap.ne_nil])]
      have heq : extractQuoted [] ⟨gap ++ (text ++ (gap' ++ (numeral.text ++ rest))), true⟩ = _ :=
        hfield.extractQuoted_of_gap hgap.spaces hgap' []
      rw [heq]
      exact ⟨rfl, extractInt_numeral hgap' numeral hrest 0⟩

/-- **What `PUBLISH` makes of its fields.** -/
theorem publish_eq {gap topicText topic gap' contentText content rest : Bytes}
    {contentType : Option Bytes} {entitlement : Option Int32} (hgap : Gap gap)
    (htopic : Field topicText topic) (hgap' : Gap gap') (hcontent : Field contentText content)
    (hoptions : PublishOptions rest contentType entitlement) :
    SquawkbusClient.publish (.start (gap ++ (topicText ++ (gap' ++ (contentText ++ rest))))) =
      .multicastData ⟨topic, [⟨entitlement.getD 0, contentTypeOr contentType, content⟩]⟩ := by
  have hends : TextInput.Ends isSpace rest := by
    cases hoptions with
    | none _ hrest => exact ends_of_spaces hrest
    | contentType hgap _ _ => exact hgap.ends _
    | entitlement hgap _ _ _ => exact hgap.ends _
  obtain ⟨good, hread, hgood⟩ := hcontent.extractQuoted_eq hgap'.spaces hends []
  obtain ⟨htype, hint⟩ := hoptions.extract_eq hgood
  unfold SquawkbusClient.publish contentTypeOr
  rw [htopic.extractQuoted_of_gap hgap.spaces hgap' []]
  simp only [hread, htype, hint]

/-- The names of the commands are words. -/
theorem isWord_of_command {command : Bytes × (Bytes → Message)} (h : command ∈ wordCommands) :
    TextInput.IsWord isSpace command.1 := by
  simp only [wordCommands, List.mem_cons, List.not_mem_nil, or_false] at h
  rcases h with rfl | rfl | rfl | rfl <;> exact TextInput.isWord_of_any (by decide) rfl

/-- **The client sends what the line asks for**, and does nothing else. -/
theorem handleCommand_of_asks {line : Bytes} {message : Message} (h : Asks line message)
    (client : SquawkbusClient) : client.handleCommand line = client.send message := by
  cases h with
  | @word lead gap word rest command hcommand hlead hgap hword hrest =>
      have hread : extractString [] (.start (lead ++ (command.1 ++ (gap ++ (word ++ rest))))) =
          (command.1, .start (gap ++ (word ++ rest))) :=
        extractString_of_gap hlead (isWord_of_command hcommand) hgap []
      have hargument : (extractString [] (.start (gap ++ (word ++ rest)))).1 = word := by
        unfold extractString
        rw [TextInput.word_append hgap.spaces hword hrest]
        rfl
      unfold SquawkbusClient.handleCommand
      simp only [hread, hargument]
      simp only [wordCommands, List.mem_cons, List.not_mem_nil, or_false] at hcommand
      rcases hcommand with rfl | rfl | rfl | rfl
      · rw [if_neg (by decide), if_pos rfl]
      · rw [if_neg (by decide), if_neg (by decide), if_pos rfl]
      · rw [if_neg (by decide), if_neg (by decide), if_neg (by decide), if_pos rfl]
      · rw [if_neg (by decide), if_neg (by decide), if_neg (by decide), if_neg (by decide),
          if_pos rfl]
  | @publish lead gap topicText topic gap' contentText content rest contentType entitlement hlead hgap
      htopic hgap' hcontent hoptions =>
      have hname : TextInput.IsWord isSpace (ascii "PUBLISH") :=
        TextInput.isWord_of_any (by decide) rfl
      have hread : extractString [] (.start (lead ++ (ascii "PUBLISH" ++
          (gap ++ (topicText ++ (gap' ++ (contentText ++ rest))))))) =
            (ascii "PUBLISH", .start (gap ++ (topicText ++ (gap' ++ (contentText ++ rest))))) :=
        extractString_of_gap hlead hname hgap []
      unfold SquawkbusClient.handleCommand
      simp only [hread, publish_eq hgap htopic hgap' hcontent hoptions]
      rw [if_neg (by decide), if_neg (by decide), if_neg (by decide), if_neg (by decide),
        if_neg (by decide), if_pos trivial]

/-- A topic with quotes and a space in it, and an entitlement below zero. -/
theorem handleCommand_of_quoted_topic :
    (SquawkbusClient.new ⟨ascii "none", []⟩).handleCommand
        (ascii "PUBLISH \"A \\\"B\\\"\"  plain text/html -7\n") =
      (SquawkbusClient.new ⟨ascii "none", []⟩).send
        (.multicastData ⟨ascii "A \"B\"", [⟨-7, ascii "text/html", ascii "plain"⟩]⟩) := by
  have hgap : Gap [32] := ⟨by decide, List.all_eq_true.mp rfl⟩
  have hgap' : Gap [32, 32] := ⟨by decide, List.all_eq_true.mp rfl⟩
  let numeral : Numeral :=
    ⟨ascii "-7", -7, .negative [55] (by decide) (List.all_eq_true.mp rfl)⟩
  have htype : Field (ascii "text/html") (ascii "text/html") :=
    .bare (ascii "text/html") (TextInput.isWord_of_any (by decide) rfl) (by rintro c ⟨⟩; decide)
  have hcontent : Field (ascii "plain") (ascii "plain") :=
    .bare (ascii "plain") (TextInput.isWord_of_any (by decide) rfl) (by rintro c ⟨⟩; decide)
  have hoptions : PublishOptions ([32] ++ (ascii "text/html" ++ ([32] ++ (numeral.text ++ [10]))))
      (some (ascii "text/html")) (some numeral.value) :=
    .entitlement hgap htype hgap (by rintro c ⟨⟩; decide)
  have hasks := Asks.publish (List.forall_mem_nil _) hgap (.quoted (ascii "A \"B\"")) hgap' hcontent
    hoptions
  exact handleCommand_of_asks hasks (.new ⟨ascii "none", []⟩)

end SquawkBus.Client
