import Mathlib.Data.List.DropRight
import OpNet.EngineList

/-!
# The names in a list of engines

A text that lists engines may have white space around the names, and commas with nothing between
them. Reading it gives the names alone, and these can be written down again: with commas between
them they are the normal form of the text.

* `Text.IsTrimmed` — there is no white space at the ends; `Text.isTrimmed_trim` and `Text.trim_pad`
  say that trimming brings this about, and that it takes away nothing else.
* `EngineList.IsName` — what can be read as the name of an engine.
* `EngineList.parse_pad` — white space around a name is not read.
* `EngineList.parse_append`, `EngineList.parse_join` — the names of texts with a comma between them,
  and those of a text that was written from names.
* `EngineList.parse_normalizes` — reading and writing, together.
-/

set_option autoImplicit false

namespace OpNet

namespace Text

/-! ## Trimming -/

variable {s : List Char}

/-- A text neither starts nor ends with white space. -/
structure IsTrimmed (s : List Char) : Prop where
  front : ∀ c ∈ s.head?, isBlank c = false
  back : ∀ c ∈ s.getLast?, isBlank c = false

theorem trimEnd_eq (s : List Char) : trimEnd s = s.rdropWhile isBlank := rfl

/-- Trimming takes away from the two ends only. -/
theorem trim_infix (s : List Char) : trim s <:+: s := by
  rw [trim, trimEnd_eq]
  exact (List.rdropWhile_prefix isBlank _).isInfix.trans (List.dropWhile_suffix isBlank).isInfix

theorem isTrimmed_trim (s : List Char) : IsTrimmed (trim s) where
  front c hc := by
    -- what is left begins as the text without the white space in front
    obtain ⟨rest, hrest⟩ := List.rdropWhile_prefix isBlank (s.dropWhile isBlank)
    have hhead : (s.dropWhile isBlank).head? = some c := by
      rw [← hrest, List.head?_append, ← trimEnd_eq, ← trim, hc]
      rfl
    have hnot := List.head?_dropWhile_not isBlank s
    rw [hhead] at hnot
    exact hnot
  back c hc := by
    obtain ⟨hne, hlast⟩ := List.mem_getLast?_eq_getLast hc
    rw [hlast]
    exact Bool.eq_false_iff.2 (List.rdropWhile_last_not isBlank _ hne)

/-- Trimming takes away the white space around a text that is trimmed. -/
theorem trim_pad {l r : List Char} (hl : ∀ c ∈ l, isBlank c) (hr : ∀ c ∈ r, isBlank c)
    (h : IsTrimmed s) (hne : s ≠ []) : trim (l ++ s ++ r) = s := by
  have hfront : (l ++ s ++ r).dropWhile isBlank = s ++ r := by
    rw [List.append_assoc, List.dropWhile_append_of_pos hl]
    obtain ⟨c, cs, rfl⟩ := List.exists_cons_of_ne_nil hne
    exact List.dropWhile_cons_of_neg (by simp [h.front c rfl])
  have hback : s.rdropWhile isBlank = s := by
    rw [List.rdropWhile_eq_self_iff]
    intro hne
    simp [h.back (s.getLast hne) (List.getLast?_eq_some_getLast hne)]
  rw [trim, hfront, trimEnd, List.reverse_append,
    List.dropWhile_append_of_pos fun c hc => hr c (List.mem_reverse.1 hc)]
  exact hback

end Text

namespace EngineList

variable {s f : List Char} {e : String} {engines : List String}

/-! ## Cutting at commas -/

/-- Any other character belongs to the first field. -/
theorem exists_fields_cons {c : Char} (hc : c ≠ ',') (s : List Char) :
    ∃ g gs, fields s = g :: gs ∧ fields (c :: s) = (c :: g) :: gs := by
  obtain ⟨g, gs, hs⟩ := List.exists_cons_of_ne_nil (fields_ne_nil s)
  refine ⟨g, gs, hs, ?_⟩
  rw [fields, hs]
  exact if_neg hc

theorem not_mem_of_mem_fields (h : f ∈ fields s) : ',' ∉ f := by
  induction s generalizing f with
  | nil =>
    rw [List.mem_singleton.1 h]
    exact List.not_mem_nil
  | cons c cs ih =>
    by_cases hc : c = ','
    · subst hc
      rw [fields_comma] at h
      rcases List.mem_cons.1 h with rfl | h
      · exact List.not_mem_nil
      · exact ih h
    · obtain ⟨g, gs, hcs, heq⟩ := exists_fields_cons hc cs
      rw [hcs] at ih
      rw [heq] at h
      rcases List.mem_cons.1 h with rfl | h
      · exact List.not_mem_cons_of_ne_of_not_mem (Ne.symm hc) (ih List.mem_cons_self)
      · exact ih (List.mem_cons_of_mem g h)

/-- A text without a comma is one field. -/
theorem fields_of_not_mem (h : ',' ∉ s) : fields s = [s] := by
  induction s with
  | nil => rfl
  | cons c cs ih =>
    rw [List.mem_cons, not_or] at h
    rw [fields, ih h.2]
    exact if_neg (Ne.symm h.1)

/-! ## Names -/

/-- A text can be read as the name of an engine. -/
structure IsName (e : String) : Prop where
  ne_empty : e ≠ ""
  noComma : ',' ∉ e.toList
  trimmed : Text.IsTrimmed e.toList

theorem names_append (s t : List Char) : names (s ++ ',' :: t) = names s ++ names t := by
  rw [names, fields_append, List.map_append, List.filter_append]
  rfl

/-- A comma between two texts keeps their names apart. -/
theorem parse_append (a b : String) : parse (a ++ "," ++ b) = parse a ++ parse b := by
  rw [parse, String.toList_append, String.toList_append, List.append_assoc]
  exact (congrArg _ (names_append a.toList b.toList)).trans List.map_append

/-- Whatever is read can be read as a name. -/
theorem isName_of_mem_parse {text : String} (h : e ∈ parse text) : IsName e := by
  obtain ⟨name, hname, rfl⟩ := List.mem_map.1 h
  obtain ⟨hmap, hempty⟩ := List.mem_filter.1 hname
  obtain ⟨f, hf, rfl⟩ := List.mem_map.1 hmap
  refine ⟨?_, ?_, ?_⟩
  · simpa [String.ofList_eq_empty_iff] using hempty
  · rw [String.toList_ofList]
    exact fun hmem => not_mem_of_mem_fields hf ((Text.trim_infix f).subset hmem)
  · rw [String.toList_ofList]
    exact Text.isTrimmed_trim f

/-- White space around a name does not belong to it. -/
theorem parse_pad {l r : String} (hl : ∀ c ∈ l.toList, Text.isBlank c)
    (hr : ∀ c ∈ r.toList, Text.isBlank c) (h : IsName e) : parse (l ++ e ++ r) = [e] := by
  have hblank : ¬Text.isBlank ',' := by decide
  have hcomma : ',' ∉ (l ++ e ++ r).toList := by
    simp only [String.toList_append, List.mem_append, not_or]
    exact ⟨⟨fun hmem => hblank (hl _ hmem), h.noComma⟩, fun hmem => hblank (hr _ hmem)⟩
  have hne : e.toList ≠ [] := fun hnil => h.ne_empty (String.toList_eq_nil_iff.1 hnil)
  rw [parse, names, fields_of_not_mem hcomma, List.map_singleton, String.toList_append,
    String.toList_append, Text.trim_pad hl hr h.trimmed hne,
    List.filter_cons_of_pos (by simp [hne]), List.filter_nil, List.map_singleton,
    String.ofList_toList]

/-- The only name in a name is the name itself. -/
theorem parse_of_isName (h : IsName e) : parse e = [e] := by
  simpa using parse_pad (l := "") (r := "") (by simp) (by simp) h

/-- Names that are written with commas between them are read as they were. -/
theorem parse_join (h : ∀ e ∈ engines, IsName e) : parse (join engines) = engines := by
  induction engines with
  | nil => rfl
  | cons e engines ih =>
    obtain ⟨hname, hrest⟩ := List.forall_mem_cons.1 h
    cases engines with
    | nil => exact parse_of_isName hname
    | cons e' rest =>
      rw [join, String.intercalate_cons_cons, parse_append, parse_of_isName hname]
      exact congrArg (e :: ·) (ih hrest)

/-- **Reading and writing lists of engines.** A comma keeps apart what stands on its two sides.
Nothing but names is read, and the lists of names are those that are read as they were written. So
what was read from a text can be written down and read again. -/
theorem parse_normalizes :
    (∀ a b, parse (a ++ "," ++ b) = parse a ++ parse b) ∧
    (∀ text, ∀ e ∈ parse text, IsName e) ∧
    (∀ engines, parse (join engines) = engines ↔ ∀ e ∈ engines, IsName e) ∧
    ∀ text, parse (join (parse text)) = parse text := by
  have hnames (text : String) : ∀ e ∈ parse text, IsName e := fun e => isName_of_mem_parse
  refine ⟨parse_append, hnames, fun engines => ⟨fun h => ?_, parse_join⟩,
    fun text => parse_join (hnames text)⟩
  rw [← h]
  exact hnames (join engines)

/-- Between two commas there may be nothing but white space, of any kind. -/
example : parse " FOO, ,BAR\u3000," = ["FOO", "BAR"] := by decide

end EngineList
end OpNet
