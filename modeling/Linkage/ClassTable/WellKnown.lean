import Linkage.ClassTable

/-
  The classes that every program can rely on: `Object`, the
  box classes, `String`, the core of the exception tree and
  `MethodHandle`.

  Key definitions include:
    * `ClassTable.wellKnown`
-/

------------------------------------------------------------
-- Groups of classes
------------------------------------------------------------

namespace Linkage

namespace ClassTable

/- A class of given flags, superclass and interfaces. -/
def declared
    (name : String)
    (flags : List Flag)
    (superclass : ClassName)
    (interfaces : List ClassName) : ClassInfo :=
  ⟨⟨name⟩, .ofList flags, some superclass, interfaces⟩

/- `Object` and the interfaces that have no parents. -/
def roots : List ClassInfo :=
  [⟨.object, .ofList [.isPublic], none, []⟩,
   .ofInterface .serializable,
   .ofInterface .cloneable,
   .ofInterface .comparable,
   .ofInterface .charSequence]

/- `Number`, the box classes and `String`. -/
def valueClasses : List ClassInfo :=
  [declared "java.lang.Number" [.isPublic, .isAbstract]
     .object [.serializable]] ++
  [Kind.byte, .short, .int, .long, .float, .double].map
    (fun k =>
      declared k.boxName [.isPublic, .isFinal]
        .number [.comparable]) ++
  [Kind.boolean, .char].map
    (fun k =>
      declared k.boxName [.isPublic, .isFinal]
        .object [.serializable, .comparable]) ++
  [declared "java.lang.Void" [.isPublic, .isFinal] .object [],
   declared "java.lang.String" [.isPublic, .isFinal] .object
     [.serializable, .comparable, .charSequence]]

/- A class and its superclass, both in `java.lang`. -/
def throwableClasses : List (String × String) :=
  [("Exception", "Throwable"),
   ("Error", "Throwable"),
   ("RuntimeException", "Exception"),
   ("ArithmeticException", "RuntimeException"),
   ("ClassCastException", "RuntimeException"),
   ("NullPointerException", "RuntimeException"),
   ("IllegalArgumentException", "RuntimeException"),
   ("IllegalStateException", "RuntimeException"),
   ("IndexOutOfBoundsException", "RuntimeException"),
   ("ArrayIndexOutOfBoundsException",
     "IndexOutOfBoundsException"),
   ("ArrayStoreException", "RuntimeException"),
   ("invoke.WrongMethodTypeException", "RuntimeException"),
   ("LinkageError", "Error"),
   ("IncompatibleClassChangeError", "LinkageError"),
   ("AbstractMethodError", "IncompatibleClassChangeError"),
   ("VirtualMachineError", "Error"),
   ("OutOfMemoryError", "VirtualMachineError")]

/- `Throwable` and the classes below it. -/
def exceptionTree : List ClassInfo :=
  declared "java.lang.Throwable" [.isPublic] .object
    [.serializable] ::
  throwableClasses.map
    (fun (name, parent) =>
      declared ("java.lang." ++ name) [.isPublic]
        ⟨"java.lang." ++ parent⟩ [])

/- The table of the well-known classes. -/
def wellKnown : ClassTable :=
  ⟨roots ++ valueClasses ++ exceptionTree ++
    [declared "java.lang.invoke.MethodHandle"
      [.isPublic, .isAbstract] .object []]⟩

end ClassTable

end Linkage
