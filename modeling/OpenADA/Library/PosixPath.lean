import OpenADA.Library.PyStr

/-! The texts of absolute POSIX paths, as `pathlib` writes them and as `os.path.abspath` resolves
them. -/
namespace PosixPath

open PyStr

def root (text : PyStr) : PyStr :=
  if lit "///" <+: text then lit "/" else if lit "//" <+: text then lit "//" else lit "/"

def parts (text : PyStr) : List PyStr :=
  (text.splitOn (point '/')).filter fun part => part ≠ [] ∧ part ≠ lit "."

def isAbsolute (text : PyStr) : Bool := text.head? = some (point '/')

/-- `str(Path(text))` of an absolute path. -/
def pathText (text : PyStr) : PyStr := root text ++ [point '/'].intercalate (parts text)

def resolveParents (components : List PyStr) : List PyStr :=
  components.foldl (fun kept part => if part = lit ".." then kept.dropLast else kept ++ [part]) []

/-- `os.path.abspath` of an absolute path. -/
def absPath (text : PyStr) : PyStr :=
  root text ++ [point '/'].intercalate (resolveParents (parts text))

end PosixPath
