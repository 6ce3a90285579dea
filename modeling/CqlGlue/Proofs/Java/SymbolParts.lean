import CqlGlue.Proofs.Java.Symbols

/-!
# Reading a symbol back

A symbol is made of names with underscores between them, and an underscore within a name has a one
behind it. No identifier begins with a digit, so an underscore between two names is never taken for
one within a name: package, class and method can be read off a symbol, and two classes whose symbols
begin alike are the same class.

## Main definitions
* `symbolParts` are the names that a symbol is made of.
* `IsPart` says that a name can be told from what stands in front of it.

## Main statements
* `symbolParts_symbol` says that the parts of a symbol are those it was made of.
* `symbolHead_eq_iff` says that the beginning of the symbols of a class loses nothing.
-/

namespace CqlGlue.JavaNative

/-- Cuts a symbol at the underscores with no one behind them; any other one belongs to a name. -/
def splitSymbol : List Char → List (List Char)
  | [] => [[]]
  | '_' :: '1' :: cs => (splitSymbol cs).modifyHead ('_' :: ·)
  | '_' :: cs => [] :: splitSymbol cs
  | c :: cs => (splitSymbol cs).modifyHead (c :: ·)

/-- The names that a symbol is made of. -/
def symbolParts (symbol : String) : List String := (splitSymbol symbol.toList).map String.ofList

/-- A name that does not begin with a one, which would make an underscore in front of it look like
an underscore within a name. -/
def IsPart (name : String) : Prop := name.toList.head? ≠ some '1'

instance (name : String) : Decidable (IsPart name) := inferInstanceAs (Decidable (_ ≠ _))

theorem isPart_of_isIdentifier {name : String} (h : IsIdentifier name) : IsPart name := by
  intro hone
  have hdigit := h.2.2
  rw [hone] at hdigit
  exact absurd hdigit (by decide)

/-! ## Cutting -/

theorem splitSymbol_cons_of_ne {c : Char} (h : c ≠ '_') (cs : List Char) :
    splitSymbol (c :: cs) = (splitSymbol cs).modifyHead (c :: ·) := by
  rw [splitSymbol]
  · exact fun _ hc _ => h hc
  · exact h

theorem splitSymbol_separator {cs : List Char} (h : cs.head? ≠ some '1') :
    splitSymbol ('_' :: cs) = [] :: splitSymbol cs := by
  rw [splitSymbol]
  rintro cs' rfl
  exact h rfl

/-- A name is read back in front of whatever follows it. -/
theorem splitSymbol_escaped_append (name rest : List Char) :
    splitSymbol (Text.replaceChar '_' ['_', '1'] name ++ rest) =
      (splitSymbol rest).modifyHead (name ++ ·) := by
  induction name with
  | nil => exact (congrFun List.modifyHead_id _).symm
  | cons c name ih =>
    rw [Text.replaceChar_cons]
    by_cases hc : c = '_'
    · subst hc
      rw [if_pos rfl, List.cons_append, List.append_assoc, List.singleton_append, splitSymbol, ih,
        List.modifyHead_modifyHead]
      rfl
    · rw [if_neg hc, List.nil_append, List.cons_append, splitSymbol_cons_of_ne hc, ih,
        List.modifyHead_modifyHead]
      rfl

/-- What follows an underscore between names does not begin with a one. -/
theorem head?_joined_ne {name : List Char} (names : List (List Char)) (h : name.head? ≠ some '1') :
    (['_'].intercalate ((name :: names).map (Text.replaceChar '_' ['_', '1']))).head? ≠
      some '1' := by
  cases name with
  | nil => cases names <;> simp [Text.replaceChar]
  | cons c name =>
    cases names <;> simpa [Text.replaceChar_cons] using h

/-- Names are read back, if none of them begins with a one. -/
theorem splitSymbol_joined {names : List (List Char)} (hne : names ≠ [])
    (h : ∀ name ∈ names, name.head? ≠ some '1') :
    splitSymbol (['_'].intercalate (names.map (Text.replaceChar '_' ['_', '1']))) = names := by
  induction names with
  | nil => exact absurd rfl hne
  | cons name names ih =>
    cases names with
    | nil =>
      have hread := splitSymbol_escaped_append name []
      rw [List.append_nil] at hread
      rw [List.map_singleton, List.intercalate_singleton, hread]
      simp [splitSymbol]
    | cons next names =>
      have hnext := head?_joined_ne names (h next (by simp))
      rw [List.map_cons, List.map_cons, List.intercalate_cons_cons, List.append_assoc,
        List.singleton_append, splitSymbol_escaped_append, ← List.map_cons,
        splitSymbol_separator hnext, ih (by simp) fun name hname => h name (by simp [hname])]
      simp

/-! ## Symbols -/

variable {package package' className className' method method' : String}

/-- All names of a symbol stand side by side in it, with the word that every symbol begins with. -/
theorem toList_symbol (package className method : String) :
    (symbol package className method).toList =
      ['_'].intercalate ((("Java" :: Text.pieces '.' package ++ [className, method]).map
        String.toList).map (Text.replaceChar '_' ['_', '1'])) := by
  have hne : (Text.pieces '.' package).map escape ≠ [] := by
    simp [Text.pieces, Text.splitChar_ne_nil]
  have hescaped (names : List String) :
      (names.map String.toList).map (Text.replaceChar '_' ['_', '1']) =
        (names.map escape).map String.toList := by
    simp [escape, Function.comp_def]
  have hjava : (escape "Java").toList = "Java".toList := by decide
  have hbar : "_".toList = ['_'] := rfl
  rw [hescaped, symbol, symbolHead, List.map_append, List.map_cons, List.map_append, List.map_cons,
    Text.intercalate_append (by simp) (by simp),
    List.intercalate_cons_of_ne_nil (by simpa using hne), hjava]
  simp [String.toList_intercalate, hbar]

/-- Package, class and method are read off a symbol. -/
theorem symbolParts_symbol (hpackage : ∀ name ∈ Text.pieces '.' package, IsPart name)
    (hclass : IsPart className) (hmethod : IsPart method) :
    symbolParts (symbol package className method) =
      "Java" :: Text.pieces '.' package ++ [className, method] := by
  rw [symbolParts, toList_symbol, splitSymbol_joined (by simp), List.map_map]
  · simp
  · intro name hname
    obtain ⟨part, hpart, rfl⟩ := List.mem_map.1 hname
    have hjava : IsPart "Java" := by decide
    simp only [List.cons_append, List.mem_cons, List.mem_append, List.not_mem_nil, or_false]
      at hpart
    rcases hpart with rfl | hpart | rfl | rfl
    · exact hjava
    · exact hpackage part hpart
    · exact hclass
    · exact hmethod

/-! ## Classes and methods -/

theorem isPart_of_mem_pieces (h : IsQualifiedName package) :
    ∀ name ∈ Text.pieces '.' package, IsPart name := by
  obtain ⟨names, hne, hnames, rfl⟩ := h
  rw [pieces_intercalate hne hnames]
  exact fun name hname => isPart_of_isIdentifier (hnames name hname)

theorem intercalate_pieces (h : IsQualifiedName package) :
    String.intercalate "." (Text.pieces '.' package) = package := by
  obtain ⟨names, hne, hnames, rfl⟩ := h
  rw [pieces_intercalate hne hnames]

/-- Methods have the same symbol only if they are the same method of the same class. -/
theorem symbol_eq_symbol_iff (hpackage : IsQualifiedName package)
    (hpackage' : IsQualifiedName package') (hclass : IsIdentifier className)
    (hclass' : IsIdentifier className') (hmethod : IsPart method) (hmethod' : IsPart method') :
    symbol package className method = symbol package' className' method' ↔
      package = package' ∧ className = className' ∧ method = method' := by
  constructor
  · intro h
    have hparts := congrArg symbolParts h
    rw [symbolParts_symbol (isPart_of_mem_pieces hpackage) (isPart_of_isIdentifier hclass) hmethod,
      symbolParts_symbol (isPart_of_mem_pieces hpackage') (isPart_of_isIdentifier hclass') hmethod']
      at hparts
    obtain ⟨hpieces, hnames⟩ := List.append_inj' hparts rfl
    have hqualified := congrArg (String.intercalate ".") (List.cons.inj hpieces).2
    rw [intercalate_pieces hpackage, intercalate_pieces hpackage'] at hqualified
    simp only [List.cons.injEq, and_true] at hnames
    exact ⟨hqualified, hnames⟩
  · rintro ⟨rfl, rfl, rfl⟩
    rfl

/-- The symbols of a class begin with what a method without a name would have as its symbol. -/
theorem symbol_empty (package className : String) :
    symbol package className "" = symbolHead package className :=
  String.append_empty

/-- Two classes have symbols that begin alike only if they are the same class of the same package,
and different methods of a class have different symbols. -/
theorem symbolHead_eq_iff (hpackage : IsQualifiedName package)
    (hpackage' : IsQualifiedName package') (hclass : IsIdentifier className)
    (hclass' : IsIdentifier className') :
    (symbolHead package className = symbolHead package' className' ↔
        package = package' ∧ className = className') ∧
      ∀ method method', symbol package className method = symbol package className method' ↔
        method = method' := by
  have hempty : IsPart "" := by decide
  have hsymbol := symbol_eq_symbol_iff hpackage hpackage' hclass hclass' hempty hempty
  rw [symbol_empty, symbol_empty] at hsymbol
  exact ⟨by simpa using hsymbol, fun method method' => (symbol_injective _ _).eq_iff⟩

/-- The same letters in the same order, with the dot and the underscores at other places. -/
theorem symbolHead_ne_shifted :
    IsQualifiedName "com.my_app" ∧ IsQualifiedName "com_my._app" ∧ IsIdentifier "Db_Api" ∧
      (symbolHead "com.my_app" "Db_Api" = "Java_com_my_1app_Db_1Api_") ∧
      symbolHead "com.my_app" "Db_Api" ≠ symbolHead "com_my._app" "Db_Api" ∧
      symbol "com.my_app" "Db_Api" "get_all" ≠ symbol "com.my_app" "Db_Api" "get__all" := by
  have hpackage : IsQualifiedName "com.my_app" :=
    ⟨["com", "my_app"], by decide, by decide, by decide⟩
  have hpackage' : IsQualifiedName "com_my._app" :=
    ⟨["com_my", "_app"], by decide, by decide, by decide⟩
  have hclass : IsIdentifier "Db_Api" := by decide
  obtain ⟨hheads, hmethods⟩ := symbolHead_eq_iff hpackage hpackage' hclass hclass
  exact ⟨hpackage, hpackage', hclass, by decide, fun h => absurd (hheads.1 h).1 (by decide),
    fun h => absurd ((hmethods _ _).1 h) (by decide)⟩

/-- Where a part of a package may begin with a one, the beginnings of symbols do not tell packages
apart. -/
example : symbolHead "com.1st" "Api" = symbolHead "com_st" "Api" := by decide

end CqlGlue.JavaNative
