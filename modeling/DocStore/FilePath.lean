import DocStore.Text.Split
import DocStore.Text.Utf8

/-! # File paths

A path is bytes, and two paths are the same if they have the same components: repeated and trailing
slashes do not count, nor do current-directory components after the first. -/
set_option autoImplicit false

namespace DocStore.FilePath

def slash : UInt8 := 0x2F
def dot : UInt8 := 0x2E

def segments (path : List UInt8) : List (List UInt8) := splitBy (· == slash) path

def isRooted (path : List UInt8) : Bool := path.head? == some slash

/-- Whether the path is rooted, and its components; a leading dot counts in a path that is not
rooted. -/
def components (path : List UInt8) : Bool × List (List UInt8) :=
  let kept (ss : List (List UInt8)) := ss.filter fun s => !s.isEmpty && s != [dot]
  if isRooted path then (true, kept (segments path))
  else
    match segments path with
    | s :: ss => (false, if s == [dot] then s :: kept ss else kept (s :: ss))
    | [] => (false, [])

def text? (path : List UInt8) : Option String := (Utf8.decode path).toOption

end DocStore.FilePath
