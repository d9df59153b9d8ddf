import ArbutusEngine.Lib.Exec
import ArbutusEngine.Lib.Heap
import ArbutusEngine.Lib.Json

/-!
# What the engine is given from outside

The engine runs on openFrameworks, on a file system and on a JSON library, none of which is part of
this development. `Host` collects the functions of these that the engine calls, together with what
C++ leaves open about the machine: the contents of members and of a local that nothing initialises,
and whether a list node that `erase` has just freed still holds the link that `it++` then reads. A
`Host` describes the surroundings during one call; a run of several calls may use a different one
for each.

Exceptions are distinguished by the C++ type thrown, because `catch (std::exception &)` catches the
standard exceptions thrown by value and nothing else: neither `throw new std::runtime_error(..)`,
which throws a pointer, nor `throw "text"`, nor a thrown `std::string`.

## Main definitions

* `Thrown`, `Undefined`, `Uninitialised`, `Host`, `Host.plain`.
* `str2int`, `roundWithPrecision`, `ofClamp`: the helpers of `Utils` and of openFrameworks.
-/

open FloatNumber (ofRat single)

namespace ArbutusEngine

/-- A thrown value, by its C++ type. -/
inductive Thrown where
  /-- A `std::exception` thrown by value. -/
  | exception (what : String)
  /-- A pointer to a `std::exception`, from `throw new`. -/
  | exceptionPointer (what : String)
  /-- A string literal, of type `const char *`. -/
  | literal (text : String)
  /-- A `std::string`. -/
  | string (text : String)
  deriving DecidableEq

/-- Whether `catch (std::exception &)` catches the thrown value. -/
def Thrown.isException : Thrown → Bool
  | exception _ => true
  | _ => false

/-- The reasons for which the behaviour of the engine can be undefined. -/
inductive Undefined where
  /-- A `NULL` pointer is dereferenced. -/
  | nullPointer
  /-- An object is used after it has been deleted. -/
  | danglingPointer
  /-- An iterator is advanced after its element has been erased. -/
  | erasedIterator
  /-- An iterator is dereferenced at or past the end of its list. -/
  | pastTheEnd
  /-- A signed counter is incremented past its largest value. -/
  | signedOverflow
  /-- An integer is divided by zero. -/
  | divisionByZero
  /-- An array is accessed outside of its bounds. -/
  | outOfBounds
  deriving DecidableEq

/-- What the members that no constructor of `VisualInstance` initialises are found to contain: what
the memory of the instance held before. -/
structure Uninitialised where
  openedTimestamp : ℕ
  lastPlayedTimestamp : ℕ
  videoX : ℤ
  videoY : ℤ
  videoWidth : ℤ
  videoHeight : ℤ
  deriving DecidableEq

/-- The surroundings of one call of the engine. -/
structure Host (N : Type := ℚ) where
  /-- `it++` on an iterator whose element has just been erased moves on to the element that
  followed, as it does as long as the freed node is intact. -/
  erasedIteratorAdvances : Bool
  /-- What the memory holds in which the instance with an address is constructed. -/
  uninitialised : Addr → Uninitialised
  /-- What the local `fileExists` of `VisualInstance::checkFileExists` holds, for each path. -/
  fileExists : String → Bool
  /-- `ofFile::doesFileExist(path, bRelativeToData)`. -/
  doesFileExist : String → Bool → Bool
  /-- `ofDirectory::doesDirectoryExist`. -/
  doesDirectoryExist : String → Bool
  /-- `ofFilePath::getEnclosingDirectory`. -/
  getEnclosingDirectory : String → String
  /-- `ofFilePath::join`. -/
  join : String → String → String
  /-- `ofFilePath::getBaseName`. -/
  getBaseName : String → String
  /-- The text of a file, `ofBufferFromFile(path).getText()`. -/
  getText : String → List UInt8
  /-- `ofBufferToFile`: whether the text was written. -/
  ofBufferToFile : String → String → Bool
  /-- `ofFile::doesFileExist` asked after the file has been written. -/
  doesWrittenFileExist : String → Bool
  /-- Whether a `fstream` on the file opens. -/
  opens : String → Bool
  /-- `ofAVFoundationPlayer::load`. -/
  load : String → Bool
  /-- What `Layer::loadShadersFromOSXBundle` fails with, if the bundle lacks the shaders. -/
  shaderError : Option String
  /-- `EngineProperties::getAppSupportPath`. -/
  getAppSupportPath : String
  /-- `ofGetElapsedTimeMillis`. -/
  ofGetElapsedTimeMillis : UInt64
  /-- `ofToFloat`. -/
  ofToFloat : String → N
  /-- `json::parse`; on malformed text, the bytes of `what()` of the `parse_error`. -/
  parse : List UInt8 → Except (List UInt8) (Json N)
  /-- `json::dump(indent)`. -/
  dump : ℤ → Json N → String

/-- Surroundings in which nothing fails: every file exists and can be written, and the shaders are
there. -/
def Host.plain (N : Type := ℚ) [FloatNumber N] : Host N where
  erasedIteratorAdvances := true
  uninitialised _ := ⟨0, 0, 0, 0, 0, 0⟩
  fileExists _ := false
  doesFileExist _ _ := true
  doesDirectoryExist _ := true
  getEnclosingDirectory path := path
  join directory path := directory ++ "/" ++ path
  getBaseName path := path
  getText _ := []
  ofBufferToFile _ _ := true
  doesWrittenFileExist _ := true
  opens _ := true
  load _ := true
  shaderError := none
  getAppSupportPath := ""
  ofGetElapsedTimeMillis := 1000
  ofToFloat _ := ofRat 0
  parse _ := .error []
  dump _ _ := ""

section numbers

variable {N : Type} [FloatNumber N]

/-- `ofClamp`, as it is documented: a value below the minimum or above the maximum is replaced by
it, and every other value is returned. A value that is no number is neither below nor above. -/
def ofClamp (value min max : N) : N :=
  if value < min then min else if max < value then max else value

/-- `roundWithPrecision`. -/
def roundWithPrecision (input : N) (precision : ℕ) : N :=
  let factor : N := ofRat (10 ^ precision)
  let rounded := floatToInt (FloatNumber.round (single (FloatNumber.mul input factor)))
  single (FloatNumber.div (single (ofRat rounded.toInt)) factor)

end numbers

/-- The bytes of a string. -/
def bytes (s : String) : List UInt8 := s.toList.flatMap String.utf8EncodeChar

/-- Surroundings like `Host.plain`, in which every file has the given text and the text holds the
given document. -/
def Host.withFile (text : String) (document : Json) : Host :=
  { Host.plain with
    getText := fun _ => bytes text
    parse := fun b => if b = bytes text then .ok document else .error [] }

theorem Host.parse_withFile (text : String) (document : Json) :
    (Host.withFile text document).parse (bytes text) = .ok document := if_pos rfl

/-- The text that bytes encode, if they are valid UTF-8. -/
def textOf (b : List UInt8) : Option String := String.fromUTF8? ⟨b.toArray⟩

/-- A `char`, which is signed, converted to `unsigned int`. -/
def charToUnsigned (b : UInt8) : UInt32 := UInt32.ofInt b.toInt8.toInt

/-- `str2int`: the hash by which strings are dispatched. It reads the C string, up to the first
zero byte. -/
def str2int : List UInt8 → UInt32
  | [] => 5381
  | b :: rest => if b = 0 then 5381 else (str2int rest * 33) ^^^ charToUnsigned b

end ArbutusEngine
