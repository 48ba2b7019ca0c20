import LotusRfq.Common.JsonValues

/-!
# LotusRfq — the canonical text of a value, before and after its JSON text

A value in memory is not yet JSON: a member may be `undefined`, a number may be no finite one.
`JSON.stringify` leaves such members out and writes `null` for such numbers, so what a receiver
parses need not be what the sender held. `stableJsonStringify` is the canonical text both sides
compute, each of the value it holds.

The keys of an object are those of `Object.entries`, in its order.

* **`stableJsonStringify_throughJson`** — where nothing is `undefined`, the two texts agree;
* **`defined_of_sameText`** — they agree nowhere else.
-/

namespace LotusRfq.Js

open List

abbrev Text := List Char

/-- What `String(n)` prints of a finite number. -/
structure Printed where
  first : Char
  rest : Text
  starts : first = '-' ∨ first.isDigit = true

def Printed.text (n : Printed) : Text := n.first :: n.rest

inductive JsValue where
  | undefined
  | null
  | bool (b : Bool)
  | nonFinite
  | number (n : Printed)
  | string (text : Text)
  | array (items : List JsValue)
  | object (entries : List (Text × JsValue))

/-! ## `JSON.stringify` of a string -/

def hexDigit (n : ℕ) : Char := Nat.digitChar (n % 16)

def escape (c : Char) : Text :=
  match c with
  | '"' => ['\\', '"']
  | '\\' => ['\\', '\\']
  | '\x08' => ['\\', 'b']
  | '\x0c' => ['\\', 'f']
  | '\n' => ['\\', 'n']
  | '\r' => ['\\', 'r']
  | '\t' => ['\\', 't']
  | c =>
    if c.toNat < 0x20 then
      ['\\', 'u', '0', '0', hexDigit (c.toNat / 16), hexDigit c.toNat]
    else [c]

def quote (text : Text) : Text := '"' :: (text.flatMap escape ++ ['"'])

/-- What stands after the closing quote of a string. -/
def skipString : Text → Text
  | [] => []
  | '"' :: rest => rest
  | '\\' :: _ :: rest => skipString rest
  | _ :: rest => skipString rest

theorem skipString_plain {c : Char} (rest : Text) (hquote : c ≠ '"') (hslash : c ≠ '\\') :
    skipString (c :: rest) = skipString rest := by
  rw [skipString]
  · exact hquote
  · intro _ _ h
    exact absurd h hslash

theorem skipString_hexDigit (n : ℕ) (rest : Text) :
    skipString (hexDigit n :: rest) = skipString rest := by
  have hplain : ∀ d < 16, Nat.digitChar d ≠ '"' ∧ Nat.digitChar d ≠ '\\' := by decide
  have hdigit := hplain (n % 16) (Nat.mod_lt n (by decide))
  exact skipString_plain rest hdigit.1 hdigit.2

theorem skipString_escape (c : Char) (rest : Text) :
    skipString (escape c ++ rest) = skipString rest := by
  unfold escape
  split
  case h_8 hquote hslash _ _ _ _ _ =>
    split
    · show skipString ('\\' :: 'u' :: '0' :: '0' :: hexDigit _ :: hexDigit _ :: rest) = _
      rw [skipString, skipString_plain _ (by decide) (by decide),
        skipString_plain _ (by decide) (by decide), skipString_hexDigit, skipString_hexDigit]
    · exact skipString_plain rest hquote hslash
  all_goals rfl

theorem skipString_quote (text rest : Text) :
    skipString (text.flatMap escape ++ '"' :: rest) = rest := by
  induction text with
  | nil => rfl
  | cons c text ih => rw [flatMap_cons, append_assoc, skipString_escape, ih]

theorem after_quote {text text' rest rest' : Text}
    (h : quote text ++ rest = quote text' ++ rest') : rest = rest' := by
  have hskip : ∀ text rest : Text, skipString (quote text ++ rest).tail = rest := by
    intro text rest
    show skipString (text.flatMap escape ++ ['"'] ++ rest) = rest
    rw [append_assoc]
    exact skipString_quote text rest
  calc rest = skipString (quote text ++ rest).tail := (hskip text rest).symm
    _ = skipString (quote text' ++ rest').tail := by rw [h]
    _ = rest' := hskip text' rest'

/-! ## The two sides -/

section

variable (localeCompare : Text → Text → Ordering)

/-- `([left], [right]) => left.localeCompare(right)`. -/
def byKey {α : Type} (left right : Text × α) : Ordering := localeCompare left.1 right.1

/-- `texts.join(",")`. -/
def joined (texts : List Text) : Text := [','].intercalate texts

mutual

/-- `stableJsonStringify`; `JSON.stringify(undefined)` is `undefined`. -/
def stableJsonStringify : JsValue → Option Text
  | .undefined => none
  | .null | .nonFinite => some ['n', 'u', 'l', 'l']
  | .bool true => some ['t', 'r', 'u', 'e']
  | .bool false => some ['f', 'a', 'l', 's', 'e']
  | .number n => some n.text
  | .string text => some (quote text)
  | .array items => some ('[' :: (joined (elementsText items) ++ [']']))
  | .object entries =>
    -- the keys are kept beside the members, so that sorting these is sorting the entries
    some ('{' :: (joined ((sortWith (byKey localeCompare) (membersText entries)).map Prod.snd)
      ++ ['}']))

/-- What `join` joins of an array: of `undefined`, nothing. -/
def elementsText : List JsValue → List Text
  | [] => []
  | item :: rest => (stableJsonStringify item).getD [] :: elementsText rest

/-- The members of an object, each with its key; in a template `undefined` is written out. -/
def membersText : List (Text × JsValue) → List (Text × Text)
  | [] => []
  | (key, entry) :: rest =>
    (key, quote key ++ ':' :: (stableJsonStringify entry).getD "undefined".toList) ::
      membersText rest

end

end

def JsValue.isUndefined : JsValue → Bool
  | .undefined => true
  | _ => false

mutual

/-- `JSON.parse(JSON.stringify(value))`. -/
def JsValue.throughJson : JsValue → JsValue
  | .undefined | .null | .nonFinite => .null
  | .bool b => .bool b
  | .number n => .number n
  | .string text => .string text
  | .array items => .array (elementsThroughJson items)
  | .object entries => .object (entriesThroughJson entries)

def elementsThroughJson : List JsValue → List JsValue
  | [] => []
  | item :: rest => item.throughJson :: elementsThroughJson rest

/-- A member that is `undefined` is left out. -/
def entriesThroughJson : List (Text × JsValue) → List (Text × JsValue)
  | [] => []
  | (key, entry) :: rest =>
    if entry.isUndefined then entriesThroughJson rest
    else (key, entry.throughJson) :: entriesThroughJson rest

end

mutual

/-- Nothing in the value is `undefined`. -/
def JsValue.Defined : JsValue → Prop
  | .undefined => False
  | .array items => ElementsDefined items
  | .object entries => EntriesDefined entries
  | _ => True

def ElementsDefined : List JsValue → Prop
  | [] => True
  | item :: rest => item.Defined ∧ ElementsDefined rest

def EntriesDefined : List (Text × JsValue) → Prop
  | [] => True
  | (_, entry) :: rest => entry.Defined ∧ EntriesDefined rest

end

/-! ### The lists, as maps -/

section

variable {localeCompare : Text → Text → Ordering}

/-- `${JSON.stringify(key)}:${stableJsonStringify(entry)}`. -/
def memberText (localeCompare : Text → Text → Ordering) (entry : Text × JsValue) : Text :=
  quote entry.1 ++ ':' :: (stableJsonStringify localeCompare entry.2).getD "undefined".toList

theorem elementsText_eq (items : List JsValue) : elementsText localeCompare items =
    items.map fun item => (stableJsonStringify localeCompare item).getD [] := by
  induction items with
  | nil => rfl
  | cons item rest ih => rw [elementsText, ih, map_cons]

variable (entries : List (Text × JsValue))

theorem membersText_eq : membersText localeCompare entries =
    entries.map fun entry => (entry.1, memberText localeCompare entry) := by
  induction entries with
  | nil => rfl
  | cons entry rest ih => rw [membersText, ih, map_cons]; rfl

theorem elementsThroughJson_eq (items : List JsValue) :
    elementsThroughJson items = items.map JsValue.throughJson := by
  induction items with
  | nil => rfl
  | cons item rest ih => rw [elementsThroughJson, ih, map_cons]

theorem entriesThroughJson_eq : entriesThroughJson entries =
      (entries.filter fun entry => !entry.2.isUndefined).map
        fun entry => (entry.1, entry.2.throughJson) := by
  induction entries with
  | nil => rfl
  | cons entry rest ih =>
    rw [entriesThroughJson, ih]
    cases h : entry.2.isUndefined
    · rw [if_neg Bool.false_ne_true, filter_cons_of_pos (by rw [h]; rfl), map_cons]
    · rw [if_pos rfl, filter_cons_of_neg (by rw [h]; exact Bool.false_ne_true)]

theorem elementsDefined_iff {items : List JsValue} :
    ElementsDefined items ↔ ∀ item ∈ items, item.Defined := by
  induction items with
  | nil => simp [ElementsDefined]
  | cons item rest ih => rw [ElementsDefined, ih, forall_mem_cons]

theorem entriesDefined_iff {entries : List (Text × JsValue)} :
    EntriesDefined entries ↔ ∀ entry ∈ entries, entry.2.Defined := by
  induction entries with
  | nil => simp [EntriesDefined]
  | cons entry rest ih => rw [EntriesDefined, ih, forall_mem_cons]

theorem sortWith_byKey_map {α β : Type} (localeCompare : Text → Text → Ordering)
    (f : Text × α → β) (items : List (Text × α)) :
    sortWith (byKey localeCompare) (items.map fun item => (item.1, f item)) =
      (sortWith (byKey localeCompare) items).map fun item => (item.1, f item) :=
  (map_insertionSort (notAfter (byKey localeCompare)) (notAfter (byKey localeCompare))
    (fun item => (item.1, f item)) items fun _ _ _ _ => Iff.rfl).symm

theorem stableJsonStringify_object :
    stableJsonStringify localeCompare (.object entries) =
      some ('{' :: (joined ((sortWith (byKey localeCompare) entries).map
        (memberText localeCompare)) ++ ['}'])) := by
  rw [stableJsonStringify, membersText_eq, sortWith_byKey_map, map_map]
  rfl

end

/-! ## A stable sort and a filter -/

section

variable {α : Type} {compare : α → α → Ordering}

theorem filter_orderedInsert [Std.TransCmp compare] (keep : α → Bool) (x : α) {items : List α}
    (hsorted : items.Pairwise (notAfter compare)) :
    (items.orderedInsert (notAfter compare) x).filter keep =
      if keep x then (items.filter keep).orderedInsert (notAfter compare) x
      else items.filter keep := by
  induction items with
  | nil => cases h : keep x <;> simp [h]
  | cons y rest ih =>
    have hrest := ih (pairwise_cons.mp hsorted).2
    by_cases hxy : notAfter compare x y
    · rw [orderedInsert_cons_of_le _ _ hxy]
      cases h : keep x
      · simp [h]
      · -- `x` stands before everything in the list, so before everything kept
        have hfirst : ∀ z ∈ (y :: rest).filter keep, notAfter compare x z := by
          intro z hz
          rcases mem_cons.mp (mem_of_mem_filter hz) with rfl | hlater
          · exact hxy
          · exact IsTrans.trans _ _ _ hxy ((pairwise_cons.mp hsorted).1 z hlater)
        rw [filter_cons_of_pos h, if_pos rfl]
        cases hkept : (y :: rest).filter keep with
        | nil => rfl
        | cons z kept =>
          rw [orderedInsert_cons_of_le _ _ (hfirst z (hkept ▸ mem_cons_self))]
    · rw [orderedInsert_of_not_le _ _ hxy]
      cases hy : keep y
      · rw [filter_cons_of_neg (by simp [hy]), filter_cons_of_neg (by simp [hy])]
        exact hrest
      · rw [filter_cons_of_pos hy, filter_cons_of_pos hy, hrest]
        cases h : keep x
        · rfl
        · rw [if_pos rfl, if_pos rfl, orderedInsert_of_not_le _ _ hxy]

theorem sortWith_filter [Std.TransCmp compare] (keep : α → Bool) (items : List α) :
    sortWith compare (items.filter keep) = (sortWith compare items).filter keep := by
  unfold sortWith
  induction items with
  | nil => rfl
  | cons x rest ih =>
    rw [insertionSort_cons, filter_orderedInsert keep x (pairwise_insertionSort _ rest), ← ih]
    cases h : keep x
    · rw [filter_cons_of_neg (by simp [h])]; rfl
    · rw [filter_cons_of_pos h]; rfl

end

/-! ## Where nothing is `undefined` -/

@[elab_as_elim] theorem JsValue.induction {P : JsValue → Prop} (undefined : P .undefined)
    (null : P .null) (bool : ∀ b, P (.bool b)) (nonFinite : P .nonFinite)
    (number : ∀ n, P (.number n)) (string : ∀ text, P (.string text))
    (array : ∀ items, (∀ item ∈ items, P item) → P (.array items))
    (object : ∀ entries, (∀ entry ∈ entries, P entry.2) → P (.object entries)) : ∀ value, P value :=
  JsValue.rec undefined null bool nonFinite number string array object
    (fun _ hmem => absurd hmem not_mem_nil)
    (fun _ _ hitem hrest => forall_mem_cons.mpr ⟨hitem, hrest⟩)
    (fun _ hmem => absurd hmem not_mem_nil)
    (fun _ _ hentry hrest => forall_mem_cons.mpr ⟨hentry, hrest⟩) (fun _ _ hentry => hentry)

section

variable {localeCompare : Text → Text → Ordering} {value : JsValue}

theorem JsValue.Defined.isUndefined (h : value.Defined) : value.isUndefined = false := by
  cases value with
  | undefined => exact h.elim
  | _ => rfl

@[simp] theorem isUndefined_throughJson : value.throughJson.isUndefined = false := by
  cases value <;> rfl

/-- The canonical text survives the JSON text of a value that has nothing `undefined`. -/
theorem stableJsonStringify_throughJson (h : value.Defined) :
    stableJsonStringify localeCompare value.throughJson =
      stableJsonStringify localeCompare value := by
  induction value using JsValue.induction with
  | undefined => exact h.elim
  | null | nonFinite => rfl
  | bool b => rfl
  | number n => rfl
  | string text => rfl
  | array items ih =>
    rw [JsValue.throughJson, stableJsonStringify, stableJsonStringify, elementsThroughJson_eq,
      elementsText_eq, elementsText_eq, map_map]
    have hitems := elementsDefined_iff.mp h
    have hsame : items.map ((fun item => (stableJsonStringify localeCompare item).getD []) ∘
        JsValue.throughJson) =
        items.map fun item => (stableJsonStringify localeCompare item).getD [] :=
      map_congr_left fun item hitem =>
        congrArg (Option.getD · []) (ih item hitem (hitems item hitem))
    rw [hsame]
  | object entries ih =>
    have hentries := entriesDefined_iff.mp h
    have hkept : (entries.filter fun entry => !entry.2.isUndefined) = entries :=
      filter_eq_self.mpr fun entry hentry => by
        rw [(hentries entry hentry).isUndefined]; rfl
    rw [JsValue.throughJson, stableJsonStringify, stableJsonStringify, entriesThroughJson_eq,
      membersText_eq, membersText_eq, hkept, map_map]
    have hsame : entries.map ((fun entry => (entry.1, memberText localeCompare entry)) ∘
        fun entry => (entry.1, entry.2.throughJson)) =
        entries.map fun entry => (entry.1, memberText localeCompare entry) :=
      map_congr_left fun entry hentry => by
        show (entry.1, memberText localeCompare (entry.1, entry.2.throughJson)) = _
        unfold memberText
        rw [ih entry hentry (hentries entry hentry)]
    rw [hsame]

end

/-! ## The texts told apart

Two texts that begin alike are read from the left, by induction over the value: a value is told
from what follows it, or the two sides part where one of them has something `undefined`. -/

section

variable (localeCompare : Text → Text → Ordering)

def textOfValue (value : JsValue) : Text := (stableJsonStringify localeCompare value).getD []

/-- The texts of the value, before and after its JSON text, end at one place, and nothing in the
value is `undefined`. -/
def Told (value : JsValue) : Prop :=
  ∀ rest rest' : Text,
    textOfValue localeCompare value ++ rest = textOfValue localeCompare value.throughJson ++ rest' →
      value.Defined ∧ rest = rest'

/-- What follows an element or a member of a list of them, with what closes it. -/
def following (close : Char) : List Text → Text → Text
  | [], rest => close :: rest
  | text :: texts, rest => ',' :: (text ++ following close texts rest)

def listed (close : Char) : List Text → Text → Text
  | [], rest => close :: rest
  | text :: texts, rest => text ++ following close texts rest

end

theorem joined_listed (close : Char) (texts : List Text) (rest : Text) :
    joined texts ++ [close] ++ rest = listed close texts rest := by
  have hmore : ∀ (text : Text) (texts : List Text),
      joined (text :: texts) ++ [close] ++ rest = text ++ following close texts rest := by
    intro text texts
    induction texts generalizing text with
    | nil => simp [joined, following]
    | cons next texts ih =>
      have hstep : joined (text :: next :: texts) = text ++ ',' :: joined (next :: texts) := by
        simp [joined, intercalate_cons_cons]
      rw [hstep, following, ← ih next]
      simp
  cases texts with
  | nil => rfl
  | cons text texts => exact hmore text texts

section

variable {localeCompare : Text → Text → Ordering}

theorem textOfValue_starts {value : JsValue} (h : value.isUndefined = false) :
    ∃ first rest, textOfValue localeCompare value = first :: rest ∧
      first ≠ 'u' ∧ first ≠ ',' ∧ first ≠ ']' := by
  cases value with
  | undefined => exact Bool.noConfusion h
  | null | nonFinite => exact ⟨_, _, rfl, by decide, by decide, by decide⟩
  | bool b => cases b <;> exact ⟨_, _, rfl, by decide, by decide, by decide⟩
  | number n =>
    have hdigit : ∀ c : Char, c ≠ '-' → c.isDigit = false → n.first ≠ c := by
      intro c hminus hc hfirst
      rcases n.starts with hstart | hstart
      · exact hminus (hfirst.symm.trans hstart)
      · rw [hfirst, hc] at hstart
        exact Bool.noConfusion hstart
    exact ⟨n.first, n.rest, rfl, hdigit 'u' (by decide) (by decide),
      hdigit ',' (by decide) (by decide), hdigit ']' (by decide) (by decide)⟩
  | string text => exact ⟨_, _, rfl, by decide, by decide, by decide⟩
  | array items => exact ⟨_, _, rfl, by decide, by decide, by decide⟩
  | object entries => exact ⟨_, _, rfl, by decide, by decide, by decide⟩

theorem following_starts (texts : List Text) (rest : Text) :
    ∃ first tail, following ']' texts rest = first :: tail ∧ (first = ',' ∨ first = ']') := by
  cases texts with
  | nil => exact ⟨_, _, rfl, .inr rfl⟩
  | cons text texts => exact ⟨_, _, rfl, .inl rfl⟩

theorem element_told {item : JsValue} (htold : item.isUndefined = false → Told localeCompare item)
    {texts : List Text} {rest rest' : Text}
    (h : textOfValue localeCompare item ++ following ']' texts rest =
      textOfValue localeCompare item.throughJson ++ rest') :
    item.Defined ∧ following ']' texts rest = rest' := by
  cases hitem : item.isUndefined with
  | false => exact htold hitem _ _ h
  | true =>
    exfalso
    have hnothing : textOfValue localeCompare item = [] := by
      cases item with
      | undefined => rfl
      | _ => exact Bool.noConfusion hitem
    obtain ⟨first, tail, hfollowing, hfirst⟩ := following_starts texts rest
    obtain ⟨start, more, hstart, -, hcomma, hclose⟩ : ∃ start more,
        textOfValue localeCompare item.throughJson = start :: more ∧
          start ≠ 'u' ∧ start ≠ ',' ∧ start ≠ ']' :=
      textOfValue_starts isUndefined_throughJson
    rw [hnothing, hfollowing, hstart] at h
    have hsame : first = start := (List.cons.inj h).1
    rcases hfirst with hfirst | hfirst
    · exact hcomma (hsame.symm.trans hfirst)
    · exact hclose (hsame.symm.trans hfirst)

theorem elements_told {items : List JsValue}
    (htold : ∀ item ∈ items, item.isUndefined = false → Told localeCompare item) {rest rest' : Text}
    (h : following ']' (items.map (textOfValue localeCompare)) rest =
      following ']' (items.map fun item => textOfValue localeCompare item.throughJson) rest') :
    (∀ item ∈ items, item.Defined) ∧ rest = rest' := by
  induction items with
  | nil => exact ⟨fun _ hmem => absurd hmem not_mem_nil, (List.cons.inj h).2⟩
  | cons item items ih =>
    have hitem := htold item mem_cons_self
    have hitems := fun other hmem => htold other (mem_cons_of_mem _ hmem)
    obtain ⟨hdefined, hfollowing⟩ := element_told hitem (List.cons.inj h).2
    obtain ⟨hall, hrest⟩ := ih hitems hfollowing
    exact ⟨forall_mem_cons.mpr ⟨hdefined, hall⟩, hrest⟩

end

variable {entry : Text × JsValue}

section

variable {localeCompare : Text → Text → Ordering}

def parsedEntry (entry : Text × JsValue) : Text × JsValue := (entry.1, entry.2.throughJson)

theorem memberText_defined (h : entry.2.isUndefined = false) :
    memberText localeCompare entry = quote entry.1 ++ ':' :: textOfValue localeCompare entry.2 := by
  have hsome : ∀ text, (stableJsonStringify localeCompare entry.2).getD text =
      textOfValue localeCompare entry.2 := by
    intro text
    unfold textOfValue
    cases hvalue : entry.2 with
    | undefined => rw [hvalue] at h; exact Bool.noConfusion h
    | bool b => cases b <;> rfl
    | _ => rfl
  rw [memberText, hsome]

theorem member_told (hentry : entry.2.isUndefined = false) (htold : Told localeCompare entry.2)
    {rest rest' : Text}
    (h : memberText localeCompare entry ++ rest = memberText localeCompare (parsedEntry entry) ++
      rest') : entry.2.Defined ∧ rest = rest' := by
  rw [memberText_defined hentry, memberText_defined isUndefined_throughJson, append_assoc,
    append_assoc] at h
  exact htold rest rest' (List.cons.inj (append_cancel_left h)).2

theorem member_undefined {other : Text × JsValue} (hentry : entry.2.isUndefined = true)
    (rest rest' : Text) : memberText localeCompare entry ++ rest ≠
      memberText localeCompare (parsedEntry other) ++ rest' := by
  intro h
  obtain ⟨start, more, hstart, hletter, -, -⟩ : ∃ start more,
      textOfValue localeCompare other.2.throughJson = start :: more ∧
        start ≠ 'u' ∧ start ≠ ',' ∧ start ≠ ']' :=
    textOfValue_starts isUndefined_throughJson
  have hwritten : memberText localeCompare entry = quote entry.1 ++ ':' :: "undefined".toList := by
    unfold memberText
    cases hvalue : entry.2 with
    | undefined => rfl
    | _ => rw [hvalue] at hentry; exact Bool.noConfusion hentry
  have hparsed : memberText localeCompare (parsedEntry other) =
      quote other.1 ++ ':' :: start :: more := by
    rw [memberText_defined isUndefined_throughJson]
    show quote other.1 ++ ':' :: textOfValue localeCompare other.2.throughJson = _
    rw [hstart]
  rw [hwritten, hparsed, append_assoc, append_assoc] at h
  exact hletter (List.cons.inj (List.cons.inj (after_quote h)).2).1.symm

def parsedEntries (entries : List (Text × JsValue)) : List (Text × JsValue) :=
  (entries.filter fun entry => !entry.2.isUndefined).map parsedEntry

theorem parsedEntries_undefined (entries : List (Text × JsValue)) (h : entry.2.isUndefined = true) :
    parsedEntries (entry :: entries) = parsedEntries entries := by
  unfold parsedEntries
  rw [filter_cons_of_neg (by rw [h]; exact Bool.false_ne_true)]

theorem parsedEntries_defined (entries : List (Text × JsValue)) (h : entry.2.isUndefined = false) :
    parsedEntries (entry :: entries) = parsedEntry entry :: parsedEntries entries := by
  unfold parsedEntries
  rw [filter_cons_of_pos (by rw [h]; rfl), map_cons]

theorem members_told {entries : List (Text × JsValue)}
    (htold : ∀ entry ∈ entries, entry.2.isUndefined = false → Told localeCompare entry.2)
    {rest rest' : Text} (h : following '}' (entries.map (memberText localeCompare)) rest =
      following '}' ((parsedEntries entries).map (memberText localeCompare)) rest') :
    (∀ entry ∈ entries, entry.2.Defined) ∧ rest = rest' := by
  induction entries with
  | nil => exact ⟨fun _ hmem => absurd hmem not_mem_nil, (List.cons.inj h).2⟩
  | cons entry entries ih =>
    have hentry := htold entry mem_cons_self
    have hentries := fun other hmem => htold other (mem_cons_of_mem _ hmem)
    cases hdrop : entry.2.isUndefined with
    | false =>
      rw [parsedEntries_defined entries hdrop] at h
      obtain ⟨hdefined, hfollowing⟩ := member_told hdrop (hentry hdrop) (List.cons.inj h).2
      obtain ⟨hall, hrest⟩ := ih hentries hfollowing
      exact ⟨forall_mem_cons.mpr ⟨hdefined, hall⟩, hrest⟩
    | true =>
      exfalso
      rw [parsedEntries_undefined entries hdrop] at h
      cases hkept : (entries.filter fun entry => !entry.2.isUndefined) with
      | nil =>
        rw [parsedEntries, hkept] at h
        exact absurd (List.cons.inj h).1 (by decide)
      | cons other others =>
        rw [parsedEntries, hkept] at h
        exact member_undefined hdrop _ _ (List.cons.inj h).2

/-- The members of an object, from the first one: what is parsed has no member too few. -/
theorem listed_members_told {entries : List (Text × JsValue)}
    (htold : ∀ entry ∈ entries, entry.2.isUndefined = false → Told localeCompare entry.2)
    {rest rest' : Text} (h : listed '}' (entries.map (memberText localeCompare)) rest =
      listed '}' ((parsedEntries entries).map (memberText localeCompare)) rest') :
    (∀ entry ∈ entries, entry.2.Defined) ∧ rest = rest' := by
  cases entries with
  | nil => exact ⟨fun _ hmem => absurd hmem not_mem_nil, (List.cons.inj h).2⟩
  | cons entry entries =>
    cases hkept : parsedEntries (entry :: entries) with
    | nil =>
      -- an object without members closes where the first key would be quoted
      rw [hkept] at h
      exact absurd (List.cons.inj h).1 (by decide)
    | cons other others =>
      refine members_told htold ?_
      rw [hkept] at h ⊢
      exact congrArg (',' :: ·) h

end

/-! ## The canonical texts agree -/

section

variable {localeCompare : Text → Text → Ordering} [Std.TransCmp localeCompare] {value : JsValue}

omit [Std.TransCmp localeCompare] in
theorem textOfValue_array (items : List JsValue) (rest : Text) :
    textOfValue localeCompare (.array items) ++ rest =
      '[' :: listed ']' (items.map (textOfValue localeCompare)) rest := by
  rw [← joined_listed]
  show '[' :: (joined (elementsText localeCompare items) ++ [']']) ++ rest = _
  rw [elementsText_eq]
  rfl

omit [Std.TransCmp localeCompare] in
theorem textOfValue_object (entries : List (Text × JsValue)) (rest : Text) :
    textOfValue localeCompare (.object entries) ++ rest =
      '{' :: listed '}' ((sortWith (byKey localeCompare) entries).map
        (memberText localeCompare)) rest := by
  rw [← joined_listed, textOfValue, stableJsonStringify_object]
  rfl

theorem sortWith_parsed (entries : List (Text × JsValue)) :
    sortWith (byKey localeCompare) (entriesThroughJson entries) =
      parsedEntries (sortWith (byKey localeCompare) entries) := by
  have : Std.TransCmp (byKey (α := JsValue) localeCompare) :=
    transCmp_ascending localeCompare Prod.fst
  have hmap := sortWith_byKey_map localeCompare (fun entry : Text × JsValue => entry.2.throughJson)
    (entries.filter fun entry => !entry.2.isUndefined)
  rw [entriesThroughJson_eq, hmap, sortWith_filter]
  rfl

theorem told (h : value.isUndefined = false) : Told localeCompare value := by
  induction value using JsValue.induction with
  | undefined => exact Bool.noConfusion h
  | null | nonFinite => exact fun _ _ hsame => ⟨trivial, append_cancel_left hsame⟩
  | bool b => exact fun _ _ hsame => ⟨trivial, append_cancel_left hsame⟩
  | number n => exact fun _ _ hsame => ⟨trivial, append_cancel_left hsame⟩
  | string text => exact fun _ _ hsame => ⟨trivial, append_cancel_left hsame⟩
  | array items ih =>
    intro rest rest' hsame
    rw [JsValue.throughJson, textOfValue_array, textOfValue_array, elementsThroughJson_eq,
      map_map] at hsame
    have hlisted := (List.cons.inj hsame).2
    suffices hall : (∀ item ∈ items, item.Defined) ∧ rest = rest' from
      ⟨elementsDefined_iff.mpr hall.1, hall.2⟩
    cases items with
    | nil => exact ⟨fun _ hmem => absurd hmem not_mem_nil, (List.cons.inj hlisted).2⟩
    | cons item items => exact elements_told ih (congrArg (',' :: ·) hlisted)
  | object entries ih =>
    intro rest rest' hsame
    rw [JsValue.throughJson, textOfValue_object, textOfValue_object, sortWith_parsed] at hsame
    obtain ⟨hall, hrest⟩ := listed_members_told
      (fun entry hmem => ih entry (mem_sortWith.mp hmem)) (List.cons.inj hsame).2
    exact ⟨entriesDefined_iff.mpr fun entry hmem => hall entry (mem_sortWith.mpr hmem), hrest⟩

theorem defined_of_sameText (h : value.isUndefined = false)
    (hsame : stableJsonStringify localeCompare value.throughJson =
      stableJsonStringify localeCompare value) : value.Defined := by
  have htexts : textOfValue localeCompare value ++ [] =
      textOfValue localeCompare value.throughJson ++ [] := by
    unfold textOfValue
    rw [hsame]
  exact (told h [] [] htexts).1

end

end LotusRfq.Js
