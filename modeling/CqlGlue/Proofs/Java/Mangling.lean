import CqlGlue.Bindings.JavaNative
import CqlGlue.Proofs.Text.Pieces
import Mathlib.Data.List.Basic

/-!
# Names of native functions

A virtual machine looks for a native method under a symbol that it makes of the class and the
method by a rule for any character. The symbols of the C side are made by a shorter rule, which
knows underscores and the dots of a package only. For identifiers the two agree.

## Main definitions
* `Jni.mangle` is the rule for any text, `Jni.symbol` the symbol of a method.
* `IsIdentifier` and `IsQualifiedName` are the names for which the rules agree.

## Main statements
* `symbol_eq` says that they do.
* `escape_injective` says that the shorter rule loses nothing.
-/

namespace CqlGlue

namespace Text

/-- Where a mark is put for itself with a text behind it, every character is kept. -/
theorem replaceChar_cons (mark : Char) (t : List Char) (c : Char) (cs : List Char) :
    replaceChar mark (mark :: t) (c :: cs) =
      c :: ((if c = mark then t else []) ++ replaceChar mark (mark :: t) cs) := by
  rw [replaceChar, replaceChar, List.flatMap_cons]
  split
  · rename_i h
    rw [h]
    rfl
  · rfl

theorem replaceChar_injective (mark : Char) (t : List Char) :
    Function.Injective (replaceChar mark (mark :: t)) := by
  intro cs
  induction cs with
  | nil =>
    intro ds h
    cases ds with
    | nil => rfl
    | cons d ds =>
      rw [replaceChar_cons] at h
      cases h
  | cons c cs ih =>
    intro ds h
    cases ds with
    | nil =>
      rw [replaceChar_cons] at h
      cases h
    | cons d ds =>
      rw [replaceChar_cons, replaceChar_cons] at h
      obtain ⟨rfl, hrest⟩ := List.cons.inj h
      rw [ih (List.append_cancel_left hrest)]

end Text

/-- Letters, digits and underscores, all of them ASCII. -/
def IsWordText (s : String) : Prop := ∀ c ∈ s.toList, c.isAlphanum ∨ c = '_'

instance (s : String) : Decidable (IsWordText s) :=
  decidable_of_iff (s.toList.all fun c => c.isAlphanum || c == '_') (by simp [IsWordText])

/-- Letters, digits and underscores, and the first one is no digit. -/
def IsIdentifier (s : String) : Prop :=
  s ≠ "" ∧ IsWordText s ∧ s.toList.head?.all (!·.isDigit)

instance (s : String) : Decidable (IsIdentifier s) := inferInstanceAs (Decidable (_ ∧ _ ∧ _))

/-- Identifiers with dots between them. -/
def IsQualifiedName (s : String) : Prop :=
  ∃ names : List String, names ≠ [] ∧ (∀ name ∈ names, IsIdentifier name) ∧
    s = String.intercalate "." names

namespace Jni

/-- The code units of a character in 16 bits each. -/
def units (c : Char) : List Nat :=
  if c.toNat < 0x10000 then [c.toNat]
  else [0xd800 + (c.toNat - 0x10000) / 0x400, 0xdc00 + (c.toNat - 0x10000) % 0x400]

/-- A code unit as four hexadecimal digits. -/
def hexDigits (n : Nat) : List Char :=
  [n / 0x1000 % 16, n / 0x100 % 16, n / 0x10 % 16, n % 16].map Nat.digitChar

/-- A character in a symbol. What is no letter and no digit is written after an underscore. -/
def mangleChar (c : Char) : List Char :=
  if c.isAlphanum then [c]
  else if c = '.' ∨ c = '/' then ['_']
  else if c = '_' then ['_', '1']
  else if c = ';' then ['_', '2']
  else if c = '[' then ['_', '3']
  else (units c).flatMap fun u => ['_', '0'] ++ hexDigits u

/-- A name in a symbol. -/
def mangle (name : String) : String := String.ofList (name.toList.flatMap mangleChar)

/-- The symbol of a method of a class that is named with its package. -/
def symbol (qualifiedClass method : String) : String :=
  "Java_" ++ mangle qualifiedClass ++ "_" ++ mangle method

theorem mangle_append (s t : String) : mangle (s ++ t) = mangle s ++ mangle t := by
  simp [mangle]

theorem mangle_intercalate (names : List String) :
    mangle (String.intercalate "." names) = String.intercalate "_" (names.map mangle) := by
  have hdot : mangle "." = "_" := by decide
  induction names with
  | nil => rfl
  | cons name names ih =>
    cases names with
    | nil => simp
    | cons name' names =>
      rw [String.intercalate_cons_cons, mangle_append, mangle_append, ih, hdot]
      simp only [List.map_cons, String.intercalate_cons_cons]

end Jni

namespace IsIdentifier

theorem dot_not_mem {s : String} (h : IsIdentifier s) : '.' ∉ s.toList := by
  intro hdot
  rcases h.2.1 _ hdot with h | h <;> revert h <;> decide

/-- Letters, digits and underscores may follow. -/
theorem append {s t : String} (hs : IsIdentifier s) (ht : IsWordText t) :
    IsIdentifier (s ++ t) := by
  obtain ⟨hne, hchars, hhead⟩ := hs
  have hne' : s.toList ≠ [] := by simpa using hne
  refine ⟨fun h => hne (String.append_eq_empty_iff.1 h).1, ?_, ?_⟩
  · intro c hc
    rw [String.toList_append, List.mem_append] at hc
    exact hc.elim (hchars c) (ht c)
  · rwa [String.toList_append, List.head?_append_of_ne_nil _ hne']

end IsIdentifier

namespace JavaNative

/-- Escaping loses nothing. -/
theorem escape_injective : Function.Injective escape := by
  intro name name' h
  have hchars := congrArg String.toList h
  rw [escape, escape, String.toList_ofList, String.toList_ofList] at hchars
  exact String.toList_injective (Text.replaceChar_injective '_' ['1'] hchars)

/-- On identifiers the short rule is the rule for any name. -/
theorem escape_eq_mangle {name : String} (h : IsWordText name) :
    escape name = Jni.mangle name := by
  rw [escape, Jni.mangle, Text.replaceChar]
  congr 1
  refine List.flatMap_congr fun c hc => ?_
  rcases h c hc with halnum | rfl
  · have hne : c ≠ '_' := by rintro rfl; revert halnum; decide
    rw [Jni.mangleChar, if_pos halnum, if_neg hne]
  · rfl

theorem pieces_intercalate {names : List String} (hne : names ≠ [])
    (h : ∀ name ∈ names, IsIdentifier name) :
    Text.pieces '.' (String.intercalate "." names) = names := by
  have hdot : ".".toList = ['.'] := rfl
  rw [Text.pieces, String.toList_intercalate, hdot, Text.splitChar_intercalate (by simpa using hne)]
  · simp
  · intro part hpart
    obtain ⟨name, hname, rfl⟩ := List.mem_map.1 hpart
    exact (h name hname).dot_not_mem

/-- A method of a class of a package has the symbol that is looked for. -/
theorem symbol_eq {package className method : String} (hpackage : IsQualifiedName package)
    (hclass : IsIdentifier className) (hmethod : IsIdentifier method) :
    symbol package className method =
      Jni.symbol (package ++ "." ++ className) method := by
  obtain ⟨names, hne, hnames, rfl⟩ := hpackage
  have hescaped : names.map escape = names.map Jni.mangle :=
    List.map_congr_left fun name h => escape_eq_mangle (hnames name h).2.1
  have hdot : Jni.mangle "." = "_" := by decide
  rw [symbol, symbolHead, pieces_intercalate hne hnames, hescaped,
    escape_eq_mangle hclass.2.1, escape_eq_mangle hmethod.2.1, Jni.symbol,
    Jni.mangle_append, Jni.mangle_append, Jni.mangle_intercalate, hdot]
  simp only [String.append_assoc]

end JavaNative

end CqlGlue
