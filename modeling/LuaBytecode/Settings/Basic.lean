import LuaBytecode.Settings.Setting
import LuaBytecode.Json.Relaxed

/-!
The settings that configuration files make. Files are read one after another, and a file is read member
by member: each member that names a setting makes it anew.
-/

namespace LuaBytecode

structure Settings where
  debug : Bool := false
  maxDepth : Setting Int := .unset 0
  maxCount : Setting Int := .unset 0
  indentJSON : Setting Bool := .unset false
  deriving DecidableEq

namespace Settings

inductive Problem where
  | malformedFile
  | malformed
  | notAnObject (kind : String)
  | badValue (name : String)
  | unknownMember (name : Bytes)
  | negative (name : String) (value : Int)
  deriving DecidableEq

def assign? (s : Settings) (name : Bytes) (datum : Json.Datum) : Option (Settings × Option Problem) :=
  let outcome (name : String) (accepted : Bool) : Option Problem :=
    if accepted then none else some (.badValue name)
  if name = utf8 "debug" then
    match datum with
    | .null => some ({ s with debug := false }, none)
    | .bool value => some ({ s with debug := value }, none)
    | _ => some (s, some (.badValue "debug"))
  else if name = utf8 "maxDepth" then
    let (maxDepth, accepted) := s.maxDepth.assign 0 Json.Datum.integer? datum
    some ({ s with maxDepth }, outcome "maxDepth" accepted)
  else if name = utf8 "maxCount" then
    let (maxCount, accepted) := s.maxCount.assign 0 Json.Datum.integer? datum
    some ({ s with maxCount }, outcome "maxCount" accepted)
  else if name = utf8 "indentJSON" then
    let (indentJSON, accepted) := s.indentJSON.assign false Json.Datum.bool? datum
    some ({ s with indentJSON }, outcome "indentJSON" accepted)
  else none

def applyMembers (rejectUnknown : Bool) (s : Settings) :
    List (Bytes × Json.Datum) → Settings × Option Problem
  | [] => (s, none)
  | (name, datum) :: rest =>
    match s.assign? name datum with
    | some (s, some problem) => (s, some problem)
    | some (s, none) => applyMembers rejectUnknown s rest
    | none =>
      if rejectUnknown then (s, some (.unknownMember name))
      else applyMembers rejectUnknown s rest

def applyText (rejectUnknown : Bool) (s : Settings) (text : Bytes) : Settings × Option Problem :=
  match Json.tokens text with
  | .openObject :: tokens =>
    let object := Json.readObject tokens
    match applyMembers rejectUnknown s object.members with
    | (s, some problem) => (s, some problem)
    -- Whether the object is complete is found out behind its last member.
    | (s, none) => (s, if object.rest? = some [] then none else some .malformed)
  | .openArray :: _ => (s, some (.notAnObject "["))
  | .null :: _ => (s, some (.notAnObject "null"))
  | .bool value :: _ => (s, some (.notAnObject (if value then "true" else "false")))
  | .number _ :: _ => (s, some (.notAnObject "number"))
  | .string _ :: _ => (s, some (.notAnObject "string"))
  | _ => (s, some .malformed)

def applyFile (s : Settings) (text : Bytes) : Settings × Option Problem :=
  -- A fault anywhere in the file keeps all of its members from taking effect.
  match Json.Relaxed.standardize? text with
  | some standard => applyText false s standard
  | none => (s, some .malformedFile)

def validate (s : Settings) : Option Problem :=
  match s.maxDepth.get?.filter (· < 0), s.maxCount.get?.filter (· < 0) with
  | some value, _ => some (.negative "maxDepth" value)
  | none, some value => some (.negative "maxCount" value)
  | none, none => none

end Settings

end LuaBytecode
