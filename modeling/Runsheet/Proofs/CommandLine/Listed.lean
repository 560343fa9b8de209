/-
Listed names. What a sequences document lists is found in it, and can be
asked for by name on the command line, unless the name opens with a dash.

Two grammars meet here. A name in a heading is any word; a value on the
command line is anything but the empty text and what opens with a dash.
A word is not empty, so the dash is all that can stand between the two,
and it is refused for every value of every flag. Nothing else in a name
matters: it may hold `=`, also at its front, because a flag is cut off at
the first `=` and holds none itself.
-/
import Runsheet.Document
import Runsheet.Proofs.CommandLine.Usage

namespace Runsheet

/-- A name that is listed is a word. -/
theorem Document.isWord_of_mem_names {doc name : Text} (h : name ∈ Document.names doc) :
    Text.IsWord name := by
  obtain ⟨line, -, hline⟩ := List.mem_filterMap.1 h
  obtain ⟨gap, tail, -, -, hname, -⟩ := Document.headingName?_eq_some_iff.1 hline
  exact hname

namespace Options

/-- Arguments that are accepted and ask for the sequence of a name. -/
def Selects (args : List Text) (name : Text) : Prop :=
  ∃ o, parse args = .ok o ∧ o.setting? .name = some name

/-- The two ways to give a name: behind its flag, and joined to it. -/
def namings (name : Text) : List (List Text) :=
  [["--name".toList, name], ["--name".toList ++ '=' :: name]]

/-- However a name is given, it is the one value. -/
theorem parse_of_mem_namings {name : Text} {args : List Text} (h : args ∈ namings name) :
    parse args = (Item.withValue ⟨"--name".toList, .setting .name⟩ name).map
      fun item => ofItems [item] := by
  have hkey : Key.ofFlag? "--name".toList = some (.setting .name) :=
    Item.ofFlag?_eq_setting_iff.2 List.mem_cons_self
  obtain ⟨hapart, hjoined⟩ := Item.readAll_of_flag hkey name
  have hread : Item.readAll args
      = (Item.withValue ⟨"--name".toList, .setting .name⟩ name).map ([·]) := by
    rcases List.mem_cons.1 h with rfl | h
    · exact hapart
    · rw [List.mem_singleton.1 h]
      exact hjoined
  rw [parse, hread]
  cases Item.withValue ⟨"--name".toList, .setting .name⟩ name <;> rfl

/-- A name that can be a value is selected. -/
theorem selects_of_mem_namings {name : Text} {args : List Text} (h : args ∈ namings name)
    (hvalue : Item.isValue name = true) : Selects args name := by
  refine ⟨ofItems [.value (.setting .name) name], ?_, ?_⟩
  · rw [parse_of_mem_namings h, Item.withValue_eq_ok_iff.2 ⟨rfl, hvalue⟩]
    rfl
  · exact get?_ofItems_singleton_eq_some_iff.2 rfl

/-- A name that opens with a dash is refused, and the error is that of a
missing value. -/
theorem parse_of_mem_namings_of_dash {name : Text} {args : List Text} (h : args ∈ namings name)
    (hdash : name.head? = some '-') :
    parse args = .error (.missingValue "--name".toList) := by
  have hvalue : ¬ Item.isValue name = true := fun hv => (Item.isValue_iff.1 hv).2 hdash
  rw [parse_of_mem_namings h, Item.withValue, if_neg hvalue]
  rfl

/-- What is listed is found, and in both ways of giving a name it is what
the arguments ask for; but a name that opens with a dash is refused as
one that is missing. -/
theorem listed_name_selected_iff {doc name : Text} (hname : name ∈ Document.names doc) :
    (Document.body? doc name).isSome = true
      ∧ ∀ args ∈ namings name,
          (Selects args name ↔ name.head? ≠ some '-')
            ∧ (name.head? = some '-' → parse args = .error (.missingValue "--name".toList)) := by
  refine ⟨Document.isSome_body?_iff.2 hname, fun args hargs => ⟨⟨fun h hdash => ?_, fun h => ?_⟩,
    fun hdash => parse_of_mem_namings_of_dash hargs hdash⟩⟩
  · obtain ⟨o, ho, -⟩ := h
    rw [parse_of_mem_namings_of_dash hargs hdash] at ho
    cases ho
  · have hne := (Document.isWord_of_mem_names hname).ne_nil
    exact selects_of_mem_namings hargs (Item.isValue_iff.2 ⟨hne, h⟩)

/-- A name that looks like an option joined to a value is a name like any
other. -/
theorem listed_name_selected_iff_equals :
    "=-n=t".toList ∈ Document.names "## t\n1. Open\n##  =-n=t (BETA)\n".toList
      ∧ Selects ["--name==-n=t".toList] "=-n=t".toList := by
  have hname : "=-n=t".toList ∈ Document.names "## t\n1. Open\n##  =-n=t (BETA)\n".toList := by
    decide +kernel
  have hargs : ["--name==-n=t".toList] ∈ namings "=-n=t".toList := by decide
  exact ⟨hname, (((listed_name_selected_iff hname).2 _ hargs).1).2 (by decide)⟩

/-- A name that opens with a dash is listed and found, and cannot be asked
for. -/
theorem listed_name_refused :
    "-x".toList ∈ Document.names "## -x\n1. Open".toList
      ∧ Document.body? "## -x\n1. Open".toList "-x".toList = some "1. Open".toList
      ∧ ¬ Selects ["--name".toList, "-x".toList] "-x".toList
      ∧ ¬ Selects ["--name=-x".toList] "-x".toList := by
  have herror : ∀ args ∈ namings "-x".toList, ¬ Selects args "-x".toList := by
    intro args hargs h
    obtain ⟨o, ho, -⟩ := h
    rw [parse_of_mem_namings_of_dash hargs rfl] at ho
    cases ho
  refine ⟨by decide +kernel, by decide +kernel, herror _ (by decide), herror _ (by decide)⟩

end Options

end Runsheet
