import ClassPatch.ClassFile.Attribute

namespace ClassPatch

/-- The version of a class file: the major version, and the minor version beside it. -/
structure ClassVersion where
  major : UInt16
  minor : UInt16
  deriving DecidableEq, Repr, Inhabited, Hashable

namespace ClassVersion

def java8 : ClassVersion := ⟨52, 0⟩

def text (v : ClassVersion) : String := s!"{v.major.toNat}.{v.minor.toNat}"

end ClassVersion

/-- A field or a method as stored. -/
structure RawMember where
  access : UInt16
  name : UInt16
  descriptor : UInt16
  attributes : List RawAttribute
  deriving Repr, Inhabited

namespace RawMember

/-- Reads flags, name, descriptor and attributes. -/
def read : Reader RawMember := do
  let access ← Reader.u16
  let name ← Reader.u16
  let descriptor ← Reader.u16
  let attributes ← Reader.list RawAttribute.read
  pure { access, name, descriptor, attributes }

/-- The bytes of a member. -/
def encode (m : RawMember) : List UInt8 :=
  BigEndian.u16 m.access ++ BigEndian.u16 m.name ++ BigEndian.u16 m.descriptor ++
    Writer.list RawAttribute.encode m.attributes

end RawMember

/-- A class file as stored. -/
structure RawClass where
  version : ClassVersion
  pool : Pool
  access : UInt16
  this : UInt16
  /-- 0 for a class without a super class. -/
  super : UInt16
  interfaces : List UInt16
  fields : List RawMember
  methods : List RawMember
  attributes : List RawAttribute
  deriving Repr, Inhabited

namespace RawClass

def magic : UInt32 := 0xCAFEBABE

/-- Reads a class file; the minor version comes before the major one. -/
def read : Reader RawClass := do
  let m ← Reader.u32
  if m != magic then Reader.fail (.badMagic m) else
  let minor ← Reader.u16
  let major ← Reader.u16
  let pool ← Pool.read
  let access ← Reader.u16
  let this ← Reader.u16
  let super ← Reader.u16
  let interfaces ← Reader.list Reader.u16
  let fields ← Reader.list RawMember.read
  let methods ← Reader.list RawMember.read
  let attributes ← Reader.list RawAttribute.read
  pure { version := ⟨major, minor⟩, pool, access, this, super, interfaces, fields, methods,
         attributes }

/-- The bytes of a class file. -/
def encode (c : RawClass) : List UInt8 :=
  BigEndian.u32 magic ++ BigEndian.u16 c.version.minor ++ BigEndian.u16 c.version.major ++
    c.pool.encode ++ BigEndian.u16 c.access ++ BigEndian.u16 c.this ++ BigEndian.u16 c.super ++
    Writer.list BigEndian.u16 c.interfaces ++ Writer.list RawMember.encode c.fields ++
    Writer.list RawMember.encode c.methods ++ Writer.list RawAttribute.encode c.attributes

end RawClass

end ClassPatch
