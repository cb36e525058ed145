/-!
# Game assets

Classes of non-fungible assets and the ledger's record of one asset.
-/

namespace Payout

/-- A class of non-fungible game asset. -/
inductive AssetClass where
  | mobileUnit
  | part
  | venue
deriving DecidableEq

namespace AssetClass

/-- Every class, in the order in which classes are listed. -/
def all : List AssetClass := [.mobileUnit, .part, .venue]

/-- The name of the class in the ledger, in settings and in messages. -/
def name : AssetClass → String
  | .mobileUnit => "mobile_unit"
  | .part => "part"
  | .venue => "venue"

def ofName? (s : String) : Option AssetClass := all.find? (·.name = s)

end AssetClass

/-- Where an asset is in its life. The settlement only ever writes `inCustody`. -/
inductive AssetState where
  /-- Held for the player and usable in the game. -/
  | inCustody
  /-- Assigned to a venue or slot. -/
  | placed
  /-- Handed over for withdrawal. -/
  | withdrawing
deriving DecidableEq

namespace AssetState

def all : List AssetState := [.inCustody, .placed, .withdrawing]

/-- The name of the state in the ledger. -/
def name : AssetState → String
  | .inCustody => "in_custody"
  | .placed => "placed"
  | .withdrawing => "withdrawing"

def ofName? (s : String) : Option AssetState := all.find? (·.name = s)

end AssetState

/-- An asset as the ledger knows it. -/
structure Asset where
  assetClass : AssetClass
  tokenId : UInt64
  /-- The wallet the asset should end up in. -/
  destination : String
  /-- The holder on chain; none if the token was never minted. -/
  custody : Option String
  /-- The linked user. -/
  userId : Option String
  state : AssetState
  /-- The venue or slot it is assigned to. -/
  placement : Option String
deriving DecidableEq

/-- Whether a record is that of a class and token. -/
def Asset.isFor (assetClass : AssetClass) (tokenId : UInt64) (a : Asset) : Bool :=
  a.assetClass = assetClass ∧ a.tokenId = tokenId

/-- The asset back in the player's hands: in custody, assigned to no place. -/
def Asset.released (a : Asset) : Asset := { a with state := .inCustody, placement := none }

/-- A user of the game and the wallet they registered. -/
structure User where
  id : String
  wallet : Option String
deriving DecidableEq

/-- Whether two written addresses are equal up to the case of ASCII letters. -/
def sameAddress (a b : String) : Bool :=
  a.toList.map Char.toLower = b.toList.map Char.toLower

end Payout
