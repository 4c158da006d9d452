import SewaConnect.Values.Value

/-! The data model of the iOS client (`Location.swift`, `User.swift`,
`Request.swift`) and its encoders `userMap` and `requestMap`. A user is one of
the two structures that conform to the `User` protocol. -/

namespace SewaConnect.Ios

open Values

structure Location where
  lat : Double
  lon : Double
  deriving DecidableEq

inductive UserType where
  | helpSeeker | volunteer | admin
  deriving DecidableEq

instance : RawRepresentable UserType where
  rawValue
    | .helpSeeker => 0
    | .volunteer => 1
    | .admin => 2
  ofRawValue
    | 0 => some .helpSeeker
    | 1 => some .volunteer
    | 2 => some .admin
    | _ => none
  ofRawValue_rawValue x := by cases x <;> rfl

inductive HelpType where
  | disasterRecovery | familyServices | tutoring
  deriving DecidableEq

instance : RawRepresentable HelpType where
  rawValue
    | .disasterRecovery => 0
    | .familyServices => 1
    | .tutoring => 2
  ofRawValue
    | 0 => some .disasterRecovery
    | 1 => some .familyServices
    | 2 => some .tutoring
    | _ => none
  ofRawValue_rawValue x := by cases x <;> rfl

def HelpType.typeName : HelpType → String
  | .disasterRecovery => "Disaster Recovery"
  | .familyServices => "Family Services"
  | .tutoring => "Tutoring"

inductive Status where
  | «open» | assigned | inProgress | fulfilled
  deriving DecidableEq

instance : RawRepresentable Status where
  rawValue
    | .open => 0
    | .assigned => 1
    | .inProgress => 2
    | .fulfilled => 3
  ofRawValue
    | 0 => some .open
    | 1 => some .assigned
    | 2 => some .inProgress
    | 3 => some .fulfilled
    | _ => none
  ofRawValue_rawValue x := by cases x <;> rfl

structure Volunteer where
  name : String
  userId : String
  type : UserType
  email : String
  phone : String
  location : Option Location
  offeringHelpType : HelpType
  deriving DecidableEq

structure Requestor where
  userId : String
  name : String
  type : UserType
  email : String
  phone : String
  location : Option Location
  deriving DecidableEq

def latitude (location : Option Location) : Double := (location.map Location.lat).getD 0

def longitude (location : Option Location) : Double := (location.map Location.lon).getD 0

def Volunteer.userMap (v : Volunteer) : Fields :=
  [("userId", .string v.userId),
    ("userName", .string v.name),
    ("type", .integer (rawValue v.type)),
    ("offeringHelpType", .integer (rawValue v.offeringHelpType)),
    ("email", .string v.email),
    ("phone", .string v.phone),
    ("lat", .double (latitude v.location)),
    ("lon", .double (longitude v.location))]

def Requestor.userMap (r : Requestor) : Fields :=
  [("userId", .string r.userId),
    ("userName", .string r.name),
    ("type", .integer (rawValue r.type)),
    ("email", .string r.email),
    ("phone", .string r.phone),
    ("lat", .double (latitude r.location)),
    ("lon", .double (longitude r.location))]

/-- A value of the protocol type `User`. -/
inductive User where
  | requestor (r : Requestor)
  | volunteer (v : Volunteer)
  deriving DecidableEq

namespace User

def userId : User → String
  | .requestor r => r.userId
  | .volunteer v => v.userId

def name : User → String
  | .requestor r => r.name
  | .volunteer v => v.name

def type : User → UserType
  | .requestor r => r.type
  | .volunteer v => v.type

def email : User → String
  | .requestor r => r.email
  | .volunteer v => v.email

def phone : User → String
  | .requestor r => r.phone
  | .volunteer v => v.phone

def location : User → Option Location
  | .requestor r => r.location
  | .volunteer v => v.location

def userMap : User → Fields
  | .requestor r => r.userMap
  | .volunteer v => v.userMap

/-! Both encoders store the protocol's fields under the same keys. -/

@[simp] theorem userMap_userId (u : User) : u.userMap.get "userId" = some (.string u.userId) := by
  cases u <;> simp [userMap, Requestor.userMap, Volunteer.userMap, userId]

@[simp] theorem userMap_userName (u : User) : u.userMap.get "userName" = some (.string u.name) := by
  cases u <;> simp [userMap, Requestor.userMap, Volunteer.userMap, name]

@[simp] theorem userMap_type (u : User) :
    u.userMap.get "type" = some (.integer (rawValue u.type)) := by
  cases u <;> simp [userMap, Requestor.userMap, Volunteer.userMap, type]

@[simp] theorem userMap_email (u : User) : u.userMap.get "email" = some (.string u.email) := by
  cases u <;> simp [userMap, Requestor.userMap, Volunteer.userMap, email]

@[simp] theorem userMap_phone (u : User) : u.userMap.get "phone" = some (.string u.phone) := by
  cases u <;> simp [userMap, Requestor.userMap, Volunteer.userMap, phone]

end User

structure Request where
  requestingHelpType : HelpType
  requestor : User
  status : Status := .open
  additionInfo : Option String
  createdAtUTC : Double
  lastModifiedAt : Option Double
  assignee : Option User := none
  deriving DecidableEq

def Request.requestMap (r : Request) : Fields :=
  [("helpType", .integer (rawValue r.requestingHelpType)),
    ("status", .integer (rawValue r.status)),
    ("user", .map r.requestor.userMap),
    ("assignee", .map ((r.assignee.map User.userMap).getD [])),
    ("additionInfo", .string (r.additionInfo.getD "none")),
    ("createdAtUTC", .double r.createdAtUTC),
    ("lastModifiedAt", .double (r.lastModifiedAt.getD r.createdAtUTC))]

end SewaConnect.Ios
