import Linkage.Settings
import Linkage.Settings.Directive

/-
  Filters of log entries: directives in the order in which
  they are tried.  A directive that needs a span or the value
  of a field can only be decided while the program runs, and
  is kept apart; one that asks for a field alone is kept in
  both places.

  Key definitions include:
    * `Directive.insert`
    * `Filter`
    * `Filter.ofText?`
    * `Filter.text`
    * `LogSettings.directives`
    * `LogSettings.filter`
-/

------------------------------------------------------------
-- Ordered directives
------------------------------------------------------------

namespace Linkage

/-
  Put a directive in its place, instead of one that selects
  the same.
-/
def Directive.insert
    (d : Directive) : List Directive → List Directive
| [] => [d]
| e :: es =>
    match d.order e with
    | .lt => d :: e :: es
    | .eq => d :: es
    | .gt => e :: insert d es

/- Put directives in order, later ones instead of earlier. -/
def Directive.arrange (ds : List Directive) : List Directive :=
  ds.foldl (fun es d => d.insert es) []

------------------------------------------------------------
-- Filters
------------------------------------------------------------

/- The directives that are decided early, and those late. -/
structure Filter where
  early : List Directive
  late : List Directive
deriving DecidableEq, Repr, Inhabited

namespace Filter

/- A directive needs what a running program tells. -/
def isLate (d : Directive) : Bool :=
  d.span.isSome || d.fields ≠ []

/- A directive needs no span and no value of a field. -/
def isEarly (d : Directive) : Bool :=
  d.span.isNone && d.fields.all (fun f => f.value.isNone)

/-
  The filter of some directives.  Those without a span or a
  field are put in first.
-/
def ofDirectives (ds : List Directive) : Filter :=
  let (late, plain) := ds.partition isLate
  ⟨Directive.arrange (plain ++ late.filter isEarly),
    Directive.arrange late⟩

/- The pieces of a text between commas, without empty ones. -/
def pieces (cs : List Char) : List (List Char) :=
  (cs.splitOn ',').filter (· ≠ [])

/- The filter that a text names, if all its pieces are good. -/
def ofText? (cs : List Char) : Option Filter :=
  ((pieces cs).mapM Directive.ofText?).map ofDirectives

/- The written form: all directives, with commas. -/
def text (f : Filter) : String :=
  ",".intercalate ((f.early ++ f.late).map Directive.text)

/- The filter that lets entries of a level through. -/
def ofLevel (l : Level) : Filter :=
  ofDirectives [{ Directive.everything with level := l }]

end Filter

------------------------------------------------------------
-- Filters of settings
------------------------------------------------------------

namespace LogSettings

/- The names of levels that settings may give. -/
def levelNames : List (String × String) :=
  [("trace", "trace"), ("debug", "debug"), ("info", "info"),
   ("warn", "warn"), ("warning", "warn"), ("error", "error")]

/-
  The directives that the settings ask for.  A level may be
  named in letters of any case, and nothing is the default.
-/
def directives (s : LogSettings) : List Char :=
  let cs := trim s.level.toList
  if cs = [] then "info".toList
  else
    match levelNames.lookup (String.ofList (cs.map Char.toLower)) with
    | some name => name.toList
    | none => cs

/- The filter of the settings alone; a bad one is the default. -/
def ownFilter (s : LogSettings) : Filter :=
  (Filter.ofText? s.directives).getD (.ofLevel .info)

/-
  The filter in force.  Directives from outside are added to
  those of the settings; if that is no filter, they stand
  alone, and if they are none either, they are ignored.
-/
def filter
    (s : LogSettings)
    (outside : Option String) : Filter :=
  match outside.map (fun o => trim o.toList) with
  | none => s.ownFilter
  | some [] => s.ownFilter
  | some cs =>
      match Filter.ofText? (s.directives ++ ',' :: cs) with
      | some f => f
      | none => (Filter.ofText? cs).getD s.ownFilter

end LogSettings

end Linkage
