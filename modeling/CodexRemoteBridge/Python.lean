/-
  CodexRemoteBridge.Python — the parts of Python the bridge leans on:
  exception classes, subscripts and `.get` on untrusted JSON, `str`
  predicates and POSIX paths.

  Strings are worked on as lists of characters, so that everything here
  evaluates.
-/
import CodexRemoteBridge.Lib.Json

namespace CodexRemoteBridge

/-! ## §1. Exceptions. -/

/-- A raised exception.  The classes some handler of the bridge names have
a constructor; every other `Exception` subclass is kept by name. -/
inductive PyExc where
  | rpcError (method : String) (error : Dict)
  | worktreeError (message : String)
  | cancelledError
  | exception (cls message : String)

/-- An exception of code outside the bridge: the event loop, the filesystem,
SQLite, the transport.  None of them raises the classes of the bridge. -/
inductive Fault where
  | cancelled
  | exception (cls message : String)

/-- A fault where it is raised. -/
def Fault.raised : Fault → PyExc
  | .cancelled => .cancelledError
  | .exception cls message => .exception cls message

/-- What a call of outside code returns or raises. -/
def lift {α : Type} : Except Fault α → Except PyExc α
  | .ok a => .ok a
  | .error fault => .error fault.raised

/-- `repr` of a string: the quote that needs no escape, if there is one, and
the control characters of ASCII in hexadecimal. -/
def reprStr (s : String) : String :=
  let cs := s.toList
  let quote := if cs.contains '\'' && !cs.contains '"' then '"' else '\''
  let body := cs.flatMap fun c =>
    if c == '\\' then ['\\', '\\']
    else if c == quote then ['\\', c]
    else if c == '\n' then ['\\', 'n']
    else if c == '\r' then ['\\', 'r']
    else if c == '\t' then ['\\', 't']
    else if c.toNat < 0x20 || c.toNat == 0x7f then
      ['\\', 'x', Nat.digitChar (c.toNat / 16), Nat.digitChar (c.toNat % 16)]
    else [c]
  String.ofList (quote :: body ++ [quote])

namespace PyExc

def valueError (message : String) : PyExc := .exception "ValueError" message
def typeError (message : String) : PyExc := .exception "TypeError" message
def attributeError (message : String) : PyExc := .exception "AttributeError" message
def transportError (message : String) : PyExc := .exception "TransportError" message

/-- `KeyError(key)`, whose text is the `repr` of the key. -/
def keyError (key : String) : PyExc := .exception "KeyError" (reprStr key)

/-- The subclasses of `OSError`; `TimeoutError` is one of them. -/
def osErrors : List String :=
  ["OSError", "TimeoutError", "FileNotFoundError", "FileExistsError", "PermissionError",
   "NotADirectoryError", "IsADirectoryError", "ConnectionError", "ConnectionResetError",
   "ConnectionRefusedError", "ConnectionAbortedError", "BrokenPipeError",
   "InterruptedError", "ProcessLookupError", "BlockingIOError", "ChildProcessError"]

/-- `except (OSError, TimeoutError)`. -/
def isOSError : PyExc → Bool
  | .exception cls _ => cls ∈ osErrors
  | _ => false

/-- `except ValueError`; `UnicodeDecodeError` and `JSONDecodeError` are
subclasses of it. -/
def isValueError : PyExc → Bool
  | .exception cls _ => cls ∈ ["ValueError", "UnicodeDecodeError", "JSONDecodeError"]
  | _ => false

end PyExc

/-! ## §2. Rendering a value. -/

mutual
/-- `repr(value)`. -/
def pyRepr : Json → String
  | .null => "None"
  | .bool b => if b then "True" else "False"
  | .int n => toString n
  | .float repr => repr
  | .str s => reprStr s
  | .arr items => "[" ++ ", ".intercalate (pyReprItems items) ++ "]"
  | .obj fields => "\x7b" ++ ", ".intercalate (pyReprFields fields) ++ "\x7d"

def pyReprItems : List Json → List String
  | [] => []
  | v :: rest => pyRepr v :: pyReprItems rest

def pyReprFields : Dict → List String
  | [] => []
  | (k, v) :: rest => (reprStr k ++ ": " ++ pyRepr v) :: pyReprFields rest
end

/-- `str(value)`. -/
def pyStr : Json → String
  | .str s => s
  | v => pyRepr v

/-- `str(error)`; for the named classes, what their constructor passes on. -/
def PyExc.message : PyExc → String
  | .rpcError method error =>
      method ++ ": " ++ pyStr ((error.get? "message").getD (.obj error))
  | .worktreeError message => message
  | .cancelledError => ""
  | .exception _ message => message

/-- `type(error).__name__`. -/
def PyExc.typeName : PyExc → String
  | .rpcError _ _ => "RpcError"
  | .worktreeError _ => "WorktreeError"
  | .cancelledError => "CancelledError"
  | .exception cls _ => cls

/-! ## §3. Untrusted JSON. -/

/-- A sequence of fallible steps succeeds when each of them does. -/
theorem bind_eq_ok {ε α β : Type} {x : Except ε α} {f : α → Except ε β} {b : β} :
    (x >>= f) = .ok b ↔ ∃ a, x = .ok a ∧ f a = .ok b := by
  cases x with
  | error e => simp [bind, Except.bind]
  | ok a => simp [bind, Except.bind]

end CodexRemoteBridge

namespace Json

open CodexRemoteBridge

/-- `type(value).__name__`. -/
def typeName : Json → String
  | .null => "NoneType"
  | .bool _ => "bool"
  | .int _ => "int"
  | .float _ => "float"
  | .str _ => "str"
  | .arr _ => "list"
  | .obj _ => "dict"

/-- `value[key]` with a string key. -/
def index (key : String) : Json → Except PyExc Json
  | .obj fields =>
      match Dict.get? fields key with
      | some v => .ok v
      | none => .error (.keyError key)
  | .arr _ => .error (.typeError "list indices must be integers or slices, not str")
  | .str _ => .error (.typeError "string indices must be integers, not 'str'")
  | v => .error (.typeError ("'" ++ v.typeName ++ "' object is not subscriptable"))

/-- `value.get(key)`, with `none` for an absent key. -/
def getField (key : String) : Json → Except PyExc (Option Json)
  | .obj fields => .ok (Dict.get? fields key)
  | v => .error (.attributeError ("'" ++ v.typeName ++ "' object has no attribute 'get'"))

/-- `value.get(key)`: an absent key gives `None`. -/
def getNone (key : String) (v : Json) : Except PyExc Json :=
  (v.getField key).map fun o => o.getD .null

/-- `value.get(key, {})`. -/
def getEmpty (key : String) (v : Json) : Except PyExc Json :=
  (v.getField key).map fun o => o.getD (.obj [])

theorem index_ok {key : String} {v w : Json} (h : v.index key = .ok w) :
    ∃ fields, v = .obj fields ∧ Dict.get? fields key = some w := by
  cases v with
  | obj fields =>
      simp only [index] at h
      split at h
      · rename_i u hu
        cases h
        exact ⟨fields, rfl, hu⟩
      · cases h
  | _ => simp [index] at h

end Json

namespace CodexRemoteBridge

/-! ## §4. Strings. -/

/-- `c.isspace()`. -/
def isSpace (c : Char) : Bool :=
  let n := c.toNat
  (9 ≤ n && n ≤ 13) || (28 ≤ n && n ≤ 32) || n == 0x85 || n == 0xa0 || n == 0x1680 ||
    (0x2000 ≤ n && n ≤ 0x200a) || n == 0x2028 || n == 0x2029 || n == 0x202f ||
    n == 0x205f || n == 0x3000

/-- `s.strip()`. -/
def strip (s : String) : String :=
  String.ofList ((s.toList.dropWhile isSpace).reverse.dropWhile isSpace).reverse

/-- `s[-n:]`. -/
def takeLast (n : Nat) (s : String) : String :=
  String.ofList (s.toList.drop (s.length - n))

/-- `s.removesuffix("\n")`. -/
def removeNewline (s : String) : String :=
  match s.toList.reverse with
  | '\n' :: rest => String.ofList rest.reverse
  | _ => s

/-- `s.split(c)` for a one-character separator. -/
def splitChars (c : Char) : List Char → List (List Char)
  | [] => [[]]
  | x :: xs =>
      if x = c then [] :: splitChars c xs
      else
        match splitChars c xs with
        | [] => [[x]]
        | part :: rest => (x :: part) :: rest

def split (c : Char) (s : String) : List String :=
  (splitChars c s.toList).map String.ofList

/-- `s.startswith(start)`. -/
def startsWith (start s : String) : Bool := start.toList.isPrefixOf s.toList

/-! ## §5. POSIX paths. -/

/-- A `pathlib.PurePosixPath`: the root (`""`, `"/"` or `"//"`) and the parts. -/
structure PyPath where
  root : String
  parts : List String
  deriving DecidableEq

namespace PyPath

/-- `Path(value)`: empty parts and `.` collapse, two leading slashes stay. -/
def ofString (value : String) : PyPath where
  root :=
    match value.toList with
    | '/' :: '/' :: '/' :: _ => "/"
    | '/' :: '/' :: _ => "//"
    | '/' :: _ => "/"
    | _ => ""
  parts := (split '/' value).filter fun part => part ≠ "" && part ≠ "."

/-- `str(path)`. -/
def str (p : PyPath) : String :=
  if p.root = "" && p.parts = [] then "."
  else p.root ++ "/".intercalate p.parts

/-- `path.is_absolute()`. -/
def isAbsolute (p : PyPath) : Bool := p.root ≠ ""

/-- `path / name` for a plain name. -/
def child (p : PyPath) (name : String) : PyPath := { p with parts := p.parts ++ [name] }

/-- `path.parent`. -/
def parent (p : PyPath) : PyPath := { p with parts := p.parts.dropLast }

/-- `path.parents`, nearest first. -/
def parents (p : PyPath) : List PyPath :=
  (List.range p.parts.length).map fun n =>
    { p with parts := p.parts.take (p.parts.length - 1 - n) }

/-- `path.is_relative_to(other)`. -/
def isRelativeTo (p other : PyPath) : Bool :=
  p.root = other.root && other.parts.isPrefixOf p.parts

end PyPath

end CodexRemoteBridge
