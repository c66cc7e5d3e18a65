import ModalRust.JsonParse

/-!
# Rendering and reading JSON

Reading the rendering of a tree back. `toValue` is what is left of a tree when its
numbers are represented anew and its objects are stored; the parser yields exactly that,
unless the tree is nested too deeply. Nothing in this file refers to a particular program.
-/

namespace ModalRust

namespace JsonTree

section Depth

variable {N : Type}

mutual

/-- How deeply arrays and objects are nested. -/
def depth : JsonTree N → ℕ
  | .array items => depthItems items + 1
  | .object entries => depthEntries entries + 1
  | _ => 0

/-- The greatest depth among an array's items. -/
def depthItems : List (JsonTree N) → ℕ
  | [] => 0
  | item :: items => max item.depth (depthItems items)

/-- The greatest depth among an object's values. -/
def depthEntries : List (Text × JsonTree N) → ℕ
  | [] => 0
  | (_, value) :: entries => max value.depth (depthEntries entries)

end

end Depth

section ToValue

variable {N M : Type} (read : N → Option M)

mutual

/-- The tree with its numbers represented anew and its objects stored, unless a number is
refused. -/
def toValue : JsonTree N → Option (JsonTree M)
  | .null => some .null
  | .bool b => some (.bool b)
  | .number n => (read n).map .number
  | .string s => some (.string s)
  | .array items => (toValueItems items).map .array
  | .object entries => (toValueEntries entries).map fun entries => .object (storeEntries entries)

/-- The items of an array. -/
def toValueItems : List (JsonTree N) → Option (List (JsonTree M))
  | [] => some []
  | item :: items =>
    item.toValue.bind fun item => (toValueItems items).map fun items => item :: items

/-- The entries of an object, before they are stored. -/
def toValueEntries : List (Text × JsonTree N) → Option (List (Text × JsonTree M))
  | [] => some []
  | (key, value) :: entries =>
    value.toValue.bind fun value =>
      (toValueEntries entries).map fun entries => (key, value) :: entries

end

end ToValue

end JsonTree

/-- A text that does not start with white space is not skipped. -/
theorem skipSpace_of_head {t : Text} (ht : ∀ c ∈ t.head?, isJsonSpace c = false) :
    skipSpace t = t := by
  cases t with
  | nil => rfl
  | cons c t => rw [skipSpace, List.dropWhile_cons, ht c rfl]; rfl

/-- A digit is no white space and starts no other value. -/
theorem starts_of_isDigit {c : Char} (hc : c.isDigit = true) :
    isJsonSpace c = false ∧ c ≠ '\x5d' ∧ c ≠ '\x22' ∧ c ≠ '\x5b' ∧ c ≠ '\x7b' ∧ c ≠ 'n' ∧
      c ≠ 't' ∧ c ≠ 'f' := by
  refine ⟨?_, ?_, ?_, ?_, ?_, ?_, ?_, ?_⟩
  · by_contra hspace
    simp only [isJsonSpace, Bool.not_eq_false, Bool.or_eq_true, beq_iff_eq] at hspace
    rcases hspace with ((rfl | rfl) | rfl) | rfl <;> exact absurd hc (by decide)
  all_goals
    rintro rfl
    exact absurd hc (by decide)

/-- The first character of a literal is no white space and starts no other value. -/
theorem Literal.WellFormed.head {l : Literal} (hl : l.WellFormed) (rest : Text) :
    ∃ c t, l.text ++ rest = c :: t ∧ isJsonSpace c = false ∧ c ≠ '\x5d' ∧ c ≠ '\x22' ∧
      c ≠ '\x5b' ∧ c ≠ '\x7b' ∧ c ≠ 'n' ∧ c ≠ 't' ∧ c ≠ 'f' := by
  rw [text_append]
  cases l.negative with
  | true =>
    refine ⟨'-', _, rfl, ?_⟩
    decide
  | false =>
    obtain ⟨d, digits, hdigits⟩ := List.exists_cons_of_ne_nil hl.whole_ne_nil
    have hd : d.isDigit = true :=
      List.all_eq_true.mp hl.whole_digits d (by rw [hdigits]; exact List.mem_cons_self)
    rw [hdigits]
    exact ⟨d, _, rfl, starts_of_isDigit hd⟩

namespace JsonTree

variable {N M : Type} [Numeric N]

/-- The first character of a rendered tree is no white space and no closing bracket. -/
theorem print_head (d : JsonTree N) :
    ∃ c t, d.print = c :: t ∧ isJsonSpace c = false ∧ c ≠ '\x5d' := by
  cases d with
  | null => exact ⟨'n', _, rfl, rfl, by decide⟩
  | bool b => cases b <;> exact ⟨_, _, rfl, rfl, by decide⟩
  | number n =>
    obtain ⟨c, t, htext, hspace, hbracket, -⟩ := (Numeric.wellFormed n).head []
    rw [List.append_nil] at htext
    exact ⟨c, t, htext, hspace, hbracket⟩
  | string s => exact ⟨'\x22', _, rfl, rfl, by decide⟩
  | array items => exact ⟨'\x5b', _, rfl, rfl, by decide⟩
  | object entries => exact ⟨'\x7b', _, rfl, rfl, by decide⟩

end JsonTree

/-- Escaping does not shorten a string. -/
theorem length_le_flatMap_escapeChar (s : Text) : s.length ≤ (s.flatMap escapeChar).length := by
  induction s with
  | nil => exact Nat.le_refl _
  | cons c s ih =>
    have hc : 1 ≤ (escapeChar c).length := by
      unfold escapeChar
      split_ifs <;> simp
    rw [List.flatMap_cons, List.length_append, List.length_cons]
    omega

/-- A delimiter ends a number. -/
theorem stopsNumber_cons {c : Char} (t : Text)
    (hc : c.isDigit = false ∧ c ≠ '.' ∧ c ≠ 'e' ∧ c ≠ 'E') : StopsNumber (c :: t) := by
  intro c' hc'
  obtain rfl : c = c' := Option.some.inj hc'
  exact hc

/-- A single part. -/
theorem commaSeparated_singleton (t : Text) : commaSeparated [t] = t := by
  simp [commaSeparated, List.intercalate]

/-- The first of several parts. -/
theorem commaSeparated_cons_cons (t u : Text) (parts : List Text) :
    commaSeparated (t :: u :: parts) = t ++ ',' :: commaSeparated (u :: parts) := by
  rw [commaSeparated, List.intercalate_cons_cons, List.append_assoc]
  rfl

/-- A result subject to a bound, passed on. -/
theorem ite_map {α β : Type} {p : Prop} [Decidable p] (a : Option α) (f : α → β) :
    (if p then a else none).map f = if p then a.map f else none := by
  split_ifs <;> rfl

/-- A result subject to a bound, reached through one more level. -/
theorem ite_depth {α : Type} {n depth : ℕ} (a : Option α) :
    (if depth = 0 then none else if n ≤ depth - 1 then a else none) =
      if n + 1 ≤ depth then a else none := by
  by_cases hdepth : depth = 0
  · rw [if_pos hdepth, if_neg (by omega)]
  · by_cases hn : n ≤ depth - 1
    · rw [if_neg hdepth, if_pos hn, if_pos (by omega)]
    · rw [if_neg hdepth, if_neg hn, if_neg (by omega)]

namespace JsonTree

variable {N M : Type} [Numeric N] (read : Literal → Option M)

/-- How the numbers of a rendered tree are read. -/
abbrev reread (n : N) : Option M := read (Numeric.literal n)

/-- The renderings of an array's items start like that of the first one. -/
theorem printItems_head (item : JsonTree N) (items : List (JsonTree N)) (rest : Text) :
    ∃ c t, commaSeparated (printItems (item :: items)) ++ rest = c :: t ∧
      isJsonSpace c = false ∧ c ≠ '\x5d' := by
  obtain ⟨c, t, hprint, hc⟩ := item.print_head
  cases items with
  | nil =>
    rw [printItems, printItems, commaSeparated_singleton, hprint]
    exact ⟨c, _, rfl, hc⟩
  | cons next items =>
    rw [printItems, printItems, commaSeparated_cons_cons, hprint]
    exact ⟨c, _, rfl, hc⟩

/-- The renderings of an object's entries start with a quote. -/
theorem printEntries_head (entry : Text × JsonTree N) (entries : List (Text × JsonTree N))
    (rest : Text) :
    ∃ t, commaSeparated (printEntries (entry :: entries)) ++ rest = '\x22' :: t := by
  obtain ⟨key, value⟩ := entry
  cases entries with
  | nil =>
    rw [printEntries, printEntries, commaSeparated_singleton, printEntry]
    exact ⟨_, rfl⟩
  | cons next entries =>
    rw [printEntries, printEntries, commaSeparated_cons_cons, printEntry]
    exact ⟨_, rfl⟩

/-- A rendered number is read. -/
theorem parseValue_number (n : N) (fuel depth : ℕ) {rest : Text} (hrest : StopsNumber rest) :
    parseValue read (fuel + 1) depth ((Numeric.literal n).text ++ rest) =
      (reread read n).map fun m => (.number m, rest) := by
  have hl := Numeric.wellFormed n
  obtain ⟨c, t, htext, hspace, -, hquote, harray, hobject, hn, ht, hf⟩ := hl.head rest
  have hskip : skipSpace (c :: t) = c :: t :=
    skipSpace_of_head fun c' hc' => Option.some.inj hc' ▸ hspace
  have hscan : scanNumber (c :: t) = some (Numeric.literal n, rest) := by
    rw [← htext, hl.scanNumber_append hrest]
  have hword : ∀ w : Text, w.head? ≠ some c → w ≠ [] → ¬ w.isPrefixOf (c :: t) = true := by
    intro w hw hne hprefix
    obtain ⟨d, w, rfl⟩ := List.exists_cons_of_ne_nil hne
    obtain ⟨rfl, -⟩ := List.cons_prefix_cons.mp (List.isPrefixOf_iff_prefix.mp hprefix)
    exact hw rfl
  have hnull := hword "null".toList (fun hhead => hn (Option.some.inj hhead).symm) (by decide)
  have htrue := hword "true".toList (fun hhead => ht (Option.some.inj hhead).symm) (by decide)
  have hfalse := hword "false".toList (fun hhead => hf (Option.some.inj hhead).symm) (by decide)
  rw [htext, parseValue, hskip]
  simp only [if_neg hquote, if_neg harray, if_neg hobject, hscan, Option.bind_some]
  rw [if_neg hnull, if_neg htrue, if_neg hfalse]

/-- A rendered string is read. -/
theorem parseValue_string (s : Text) (fuel depth : ℕ) (rest : Text) :
    parseValue read (fuel + 1) depth (quote s ++ rest) = some (.string s, rest) := by
  have hlength := length_le_flatMap_escapeChar s
  have hscan : scanString ((s.flatMap escapeChar ++ '\x22' :: rest).length + 1)
      (s.flatMap escapeChar ++ '\x22' :: rest) = some (s, rest) :=
    scanString_append s _ rest (by rw [List.length_append]; omega)
  have hquoted : quote s ++ rest = '\x22' :: (s.flatMap escapeChar ++ '\x22' :: rest) := by
    simp only [quote, List.cons_append, List.append_assoc, List.nil_append]
  have hskip : skipSpace ('\x22' :: (s.flatMap escapeChar ++ '\x22' :: rest)) =
      '\x22' :: (s.flatMap escapeChar ++ '\x22' :: rest) := rfl
  rw [hquoted, parseValue, hskip]
  simp only [if_true, hscan, Option.map_some]

/-- A text with an opening bracket is read as an array. -/
theorem parseValue_bracket (fuel depth : ℕ) (t : Text) :
    parseValue read (fuel + 1) depth ('\x5b' :: t) =
      if depth = 0 then none
      else if (skipSpace t).head? = some '\x5d' then some (.array [], (skipSpace t).tail)
      else (parseItems read fuel (depth - 1) t).map fun (items, rest) => (.array items, rest) :=
  rfl

/-- A text with an opening brace is read as an object. -/
theorem parseValue_brace (fuel depth : ℕ) (t : Text) :
    parseValue read (fuel + 1) depth ('\x7b' :: t) =
      if depth = 0 then none
      else if (skipSpace t).head? = some '\x7d' then some (.object [], (skipSpace t).tail)
      else (parseEntries read fuel (depth - 1) t).map fun (entries, rest) =>
        (.object (storeEntries entries), rest) :=
  rfl

/-- The key of a rendered entry is read. -/
theorem parseEntries_printEntry (key : Text) (value : JsonTree N) (fuel depth : ℕ) (rest : Text) :
    parseEntries read (fuel + 1) depth (printEntry (key, value) ++ rest) =
      (parseValue read fuel depth (value.print ++ rest)).bind fun (value, rest) =>
        if (skipSpace rest).head? = some '\x7d' then some ([(key, value)], (skipSpace rest).tail)
        else if (skipSpace rest).head? = some ',' then
          (parseEntries read fuel depth (skipSpace rest).tail).map fun (entries, rest) =>
            ((key, value) :: entries, rest)
        else none := by
  have hquoted : printEntry (key, value) ++ rest =
      '\x22' :: (key.flatMap escapeChar ++ '\x22' :: (':' :: (value.print ++ rest))) := by
    simp only [printEntry, quote, List.cons_append, List.append_assoc, List.nil_append]
  have hlength := length_le_flatMap_escapeChar key
  have hscan := scanString_append key ((printEntry (key, value) ++ rest).length + 1)
    (':' :: (value.print ++ rest)) (by
      rw [hquoted, List.length_cons, List.length_append]
      omega)
  rw [parseEntries]
  generalize (printEntry (key, value) ++ rest).length + 1 = bound at hscan
  have hskip : skipSpace (printEntry (key, value) ++ rest) =
      '\x22' :: (key.flatMap escapeChar ++ '\x22' :: (':' :: (value.print ++ rest))) := by
    rw [hquoted]
    rfl
  rw [hskip, List.head?_cons, if_pos rfl, List.tail_cons, hscan, Option.bind_some]
  rfl

mutual

/-- **A rendered tree is read as far as it is not too deep.** -/
theorem parseValue_print : ∀ (d : JsonTree N) (fuel depth : ℕ) (rest : Text),
    d.print.length ≤ fuel → StopsNumber rest →
      parseValue read fuel depth (d.print ++ rest) =
        if d.depth ≤ depth then (d.toValue (reread read)).map fun value => (value, rest) else none
  | d, 0, depth, rest, hfuel, hrest => by
    obtain ⟨c, t, hprint, -⟩ := d.print_head
    rw [hprint, List.length_cons] at hfuel
    omega
  | .null, fuel + 1, depth, rest, hfuel, hrest =>
    (if_pos (Nat.zero_le depth)).symm
  | .bool true, fuel + 1, depth, rest, hfuel, hrest =>
    (if_pos (Nat.zero_le depth)).symm
  | .bool false, fuel + 1, depth, rest, hfuel, hrest =>
    (if_pos (Nat.zero_le depth)).symm
  | .number n, fuel + 1, depth, rest, hfuel, hrest => by
    have hdepth : (number n).depth ≤ depth := Nat.zero_le _
    rw [if_pos hdepth, print, parseValue_number read n fuel depth hrest, toValue, Option.map_map]
    rfl
  | .string s, fuel + 1, depth, rest, hfuel, hrest => by
    have hdepth : (string s : JsonTree N).depth ≤ depth := Nat.zero_le _
    rw [if_pos hdepth, print, parseValue_string]
    rfl
  | .array [], fuel + 1, depth, rest, hfuel, hrest => by
    have hbrackets : (array [] : JsonTree N).print ++ rest = '\x5b' :: '\x5d' :: rest := rfl
    rw [hbrackets, parseValue_bracket]
    cases depth with
    | zero => rfl
    | succ depth =>
      have hdepth : (array [] : JsonTree N).depth ≤ depth + 1 := Nat.le_add_left 1 depth
      rw [if_pos hdepth]
      rfl
  | .array (item :: items), fuel + 1, depth, rest, hfuel, hrest => by
    have hbrackets : (array (item :: items)).print ++ rest =
        '\x5b' :: (commaSeparated (printItems (item :: items)) ++ '\x5d' :: rest) := by
      simp only [print, List.cons_append, List.append_assoc, List.nil_append]
    obtain ⟨c, t, hstart, hspace, hbracket⟩ := printItems_head item items ('\x5d' :: rest)
    have hskip : skipSpace (c :: t) = c :: t :=
      skipSpace_of_head fun c' hc' => Option.some.inj hc' ▸ hspace
    have hhead : (c :: t).head? ≠ some '\x5d' := fun hhead => hbracket (Option.some.inj hhead)
    have hlength : (commaSeparated (printItems (item :: items))).length + 1 ≤ fuel := by
      simp only [print, List.length_cons, List.length_append, List.length_nil] at hfuel
      omega
    have hitems := parseItems_print item items fuel (depth - 1) rest hlength
    rw [hbrackets, parseValue_bracket, hstart, hskip, if_neg hhead, ← hstart, hitems, ite_map,
      ite_depth, toValue, Option.map_map, Option.map_map]
    rfl
  | .object [], fuel + 1, depth, rest, hfuel, hrest => by
    have hbraces : (object [] : JsonTree N).print ++ rest = '\x7b' :: '\x7d' :: rest := rfl
    rw [hbraces, parseValue_brace]
    cases depth with
    | zero => rfl
    | succ depth =>
      have hdepth : (object [] : JsonTree N).depth ≤ depth + 1 := Nat.le_add_left 1 depth
      rw [if_pos hdepth]
      rfl
  | .object (entry :: entries), fuel + 1, depth, rest, hfuel, hrest => by
    have hbraces : (object (entry :: entries)).print ++ rest =
        '\x7b' :: (commaSeparated (printEntries (entry :: entries)) ++ '\x7d' :: rest) := by
      simp only [print, List.cons_append, List.append_assoc, List.nil_append]
    obtain ⟨t, hstart⟩ := printEntries_head entry entries ('\x7d' :: rest)
    have hskip : skipSpace ('\x22' :: t) = '\x22' :: t := rfl
    have hhead : ('\x22' :: t).head? ≠ some '\x7d' := by
      rw [List.head?_cons]
      decide
    have hlength : (commaSeparated (printEntries (entry :: entries))).length + 1 ≤ fuel := by
      simp only [print, List.length_cons, List.length_append, List.length_nil] at hfuel
      omega
    have hentries := parseEntries_print entry entries fuel (depth - 1) rest hlength
    rw [hbraces, parseValue_brace, hstart, hskip, if_neg hhead, ← hstart, hentries, ite_map,
      ite_depth, toValue, Option.map_map, Option.map_map]
    rfl

/-- The items of a rendered array are read as far as none is too deep. -/
theorem parseItems_print : ∀ (item : JsonTree N) (items : List (JsonTree N)) (fuel depth : ℕ)
    (rest : Text), (commaSeparated (printItems (item :: items))).length + 1 ≤ fuel →
      parseItems read fuel depth (commaSeparated (printItems (item :: items)) ++ '\x5d' :: rest) =
        if depthItems (item :: items) ≤ depth then
          (toValueItems (reread read) (item :: items)).map fun values => (values, rest)
        else none
  | item, items, 0, depth, rest, hfuel => by omega
  | item, [], fuel + 1, depth, rest, hfuel => by
    have hlength : item.print.length ≤ fuel := by
      rw [printItems, printItems, commaSeparated_singleton] at hfuel
      omega
    have hitem := parseValue_print item fuel depth ('\x5d' :: rest) hlength
      (stopsNumber_cons rest (by decide))
    have hdepth : depthItems [item] = item.depth := Nat.max_zero _
    rw [printItems, printItems, commaSeparated_singleton, parseItems, hitem, hdepth]
    simp only [toValueItems]
    by_cases hle : item.depth ≤ depth
    · rw [if_pos hle, if_pos hle]
      cases item.toValue (reread read) <;> rfl
    · rw [if_neg hle, if_neg hle]
      rfl
  | item, next :: items, fuel + 1, depth, rest, hfuel => by
    rw [printItems, printItems, commaSeparated_cons_cons] at hfuel
    rw [← printItems, List.length_append, List.length_cons] at hfuel
    have hitem := parseValue_print item fuel depth
      (',' :: (commaSeparated (printItems (next :: items)) ++ '\x5d' :: rest)) (by omega)
      (stopsNumber_cons _ (by decide))
    have hitems := parseItems_print next items fuel depth rest (by omega)
    have hdepth : depthItems (item :: next :: items) ≤ depth ↔
        item.depth ≤ depth ∧ depthItems (next :: items) ≤ depth := Nat.max_le
    rw [printItems, printItems, commaSeparated_cons_cons, ← printItems, List.append_assoc,
      List.cons_append, parseItems, hitem, toValueItems]
    simp only [hdepth]
    by_cases hle : item.depth ≤ depth
    · cases item.toValue (reread read) with
      | none => simp only [Option.map_none, Option.bind_none, ite_self]
      | some value =>
        rw [if_pos hle, Option.map_some, Option.bind_some]
        change (parseItems read fuel depth
          (commaSeparated (printItems (next :: items)) ++ '\x5d' :: rest)).map _ = _
        rw [hitems, ite_map]
        simp only [hle, true_and, Option.bind_some, Option.map_map]
        rfl
    · rw [if_neg hle, if_neg fun hboth : _ ∧ _ => hle hboth.1]
      rfl

/-- The entries of a rendered object are read as far as no value is too deep. -/
theorem parseEntries_print : ∀ (entry : Text × JsonTree N) (entries : List (Text × JsonTree N))
    (fuel depth : ℕ) (rest : Text),
    (commaSeparated (printEntries (entry :: entries))).length + 1 ≤ fuel →
      parseEntries read fuel depth
          (commaSeparated (printEntries (entry :: entries)) ++ '\x7d' :: rest) =
        if depthEntries (entry :: entries) ≤ depth then
          (toValueEntries (reread read) (entry :: entries)).map fun values => (values, rest)
        else none
  | entry, entries, 0, depth, rest, hfuel => by omega
  | (key, value), [], fuel + 1, depth, rest, hfuel => by
    rw [printEntries, printEntries, commaSeparated_singleton, printEntry, List.length_append,
      List.length_cons] at hfuel
    have hvalue := parseValue_print value fuel depth ('\x7d' :: rest) (by omega)
      (stopsNumber_cons rest (by decide))
    have hdepth : depthEntries [(key, value)] = value.depth := Nat.max_zero _
    rw [printEntries, printEntries, commaSeparated_singleton, parseEntries_printEntry, hvalue,
      hdepth]
    simp only [toValueEntries]
    by_cases hle : value.depth ≤ depth
    · rw [if_pos hle, if_pos hle]
      cases value.toValue (reread read) <;> rfl
    · rw [if_neg hle, if_neg hle]
      rfl
  | (key, value), next :: entries, fuel + 1, depth, rest, hfuel => by
    rw [printEntries, printEntries, commaSeparated_cons_cons, ← printEntries, printEntry,
      List.length_append, List.length_append, List.length_cons, List.length_cons] at hfuel
    have hvalue := parseValue_print value fuel depth
      (',' :: (commaSeparated (printEntries (next :: entries)) ++ '\x7d' :: rest)) (by omega)
      (stopsNumber_cons _ (by decide))
    have hentries := parseEntries_print next entries fuel depth rest (by omega)
    have hdepth : depthEntries ((key, value) :: next :: entries) ≤ depth ↔
        value.depth ≤ depth ∧ depthEntries (next :: entries) ≤ depth := Nat.max_le
    rw [printEntries, printEntries, commaSeparated_cons_cons, ← printEntries, List.append_assoc,
      List.cons_append, parseEntries_printEntry, hvalue, toValueEntries]
    simp only [hdepth]
    by_cases hle : value.depth ≤ depth
    · cases value.toValue (reread read) with
      | none => simp only [Option.map_none, Option.bind_none, ite_self]
      | some stored =>
        rw [if_pos hle, Option.map_some, Option.bind_some]
        change (parseEntries read fuel depth
          (commaSeparated (printEntries (next :: entries)) ++ '\x7d' :: rest)).map _ = _
        rw [hentries, ite_map]
        simp only [hle, true_and, Option.bind_some, Option.map_map]
        rfl
    · rw [if_neg hle, if_neg fun hboth : _ ∧ _ => hle hboth.1]
      rfl

end

/-- **Reading a rendered tree**, with white space behind it. -/
theorem parseJson_print (d : JsonTree N) {space : Text} (hspace : space.all isJsonSpace = true) :
    parseJson read (d.print ++ space) =
      if d.depth ≤ 127 then d.toValue (reread read) else none := by
  have hskip : skipSpace space = [] := by
    rw [skipSpace, List.dropWhile_eq_nil_iff]
    exact List.all_eq_true.mp hspace
  have hstops : StopsNumber space := by
    intro c hc
    have hmem : c ∈ space := List.mem_of_mem_head? hc
    have hc : isJsonSpace c = true := List.all_eq_true.mp hspace c hmem
    simp only [isJsonSpace, Bool.or_eq_true, beq_iff_eq] at hc
    rcases hc with ((rfl | rfl) | rfl) | rfl <;> decide
  have hlength : d.print.length ≤ 2 * (d.print ++ space).length := by
    rw [List.length_append]
    omega
  rw [parseJson, parseValue_print read d _ 127 space hlength hstops]
  by_cases hdepth : d.depth ≤ 127
  · rw [if_pos hdepth, if_pos hdepth]
    cases d.toValue (reread read) with
    | none => rfl
    | some value => simp only [Option.map_some, Option.bind_some, hskip, if_true]
  · rw [if_neg hdepth, if_neg hdepth]
    rfl

end JsonTree

end ModalRust
