import DpcppTrace.Foundation.FileSystem
import DpcppTrace.Model.PrintTrace
import DpcppTrace.Model.RecordPlugin

/-! # The traces of a directory

`printTrace` goes through the trace directory in the order in which it is listed and reads the files with
the extension of a trace; the name of the thread is the rest of the file name.
-/

namespace DpcppTrace.Model

open Foundation

/-- `std::filesystem::path::extension`: what the stem leaves of the file name. -/
def extension (text : Bytes) : Bytes := (filename text).drop (stem text).length

section Names

variable {name ext : Bytes}

private theorem filename_of_plain (plain : slash ∉ name) : filename name = name := by
  rw [filename, List.splitOn_eq_singleton plain]
  rfl

private theorem filename_dotted (plain : slash ∉ name) (extPlain : slash ∉ ext) :
    filename (name ++ 0x2e :: ext) = name ++ 0x2e :: ext := by
  apply filename_of_plain
  have dot : slash ≠ 0x2e := by decide
  simp [plain, extPlain, dot]

/-- What stands in front of the last dot is the stem. -/
theorem stem_dotted (nonempty : name ≠ []) (plain : slash ∉ name) (extPlain : slash ∉ ext)
    (undotted : 0x2e ∉ ext) (extended : ext ≠ []) : stem (name ++ 0x2e :: ext) = name := by
  have behind : ∀ c ∈ ext.reverse, (c != 0x2e) = true := by
    intro c member
    rw [bne_iff_ne]
    rintro rfl
    exact undotted (List.mem_reverse.mp member)
  have front : (((name ++ 0x2e :: ext).reverse.dropWhile (· != 0x2e)).drop 1).reverse = name := by
    rw [List.reverse_append, List.reverse_cons, List.append_assoc,
      List.dropWhile_append_of_pos behind]
    simp
  have long : name ++ 0x2e :: ext ≠ str ".." := by
    intro same
    have widths := congrArg List.length same
    have dots : (str "..").length = 2 := by decide
    rw [List.length_append, List.length_cons, dots] at widths
    have first := List.length_pos_iff.mpr nonempty
    have second := List.length_pos_iff.mpr extended
    omega
  rw [stem, filename_dotted plain extPlain]
  simp only [front]
  exact if_neg (not_or.mpr ⟨long, nonempty⟩)

theorem extension_dotted (nonempty : name ≠ []) (plain : slash ∉ name) (extPlain : slash ∉ ext)
    (undotted : 0x2e ∉ ext) (extended : ext ≠ []) : extension (name ++ 0x2e :: ext) = 0x2e :: ext := by
  rw [extension, stem_dotted nonempty plain extPlain undotted extended,
    filename_dotted plain extPlain, List.drop_left]

/-- The extension is the end of the name. -/
theorem extension_suffix (text : Bytes) : extension text <:+ text :=
  (List.drop_suffix _ _).trans (filename_suffix text)

end Names

/-- The files that `printTrace` reads from the directory of a recording. -/
def traceFiles (output : TraceOutput) (listing : List Bytes) : List (Bytes × IStream) :=
  (listing.filter fun file => extension file = kPiTraceExt).map fun file =>
    (stem file, .opened (output.traces file))

end DpcppTrace.Model
