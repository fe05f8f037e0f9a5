import SchemaLedger.Migrate.Apply

/-!
# Listings of statements

A listing shows a migration with its statements, each ended by a semicolon. Listings are
parted by an empty line.
-/

namespace SchemaLedger

/-- The lines of a migration and its statements. -/
def Planned.listing (p : Planned) : List String :=
  ("-- " ++ p.name.text) :: p.statements.map (· ++ ";")

/-- The listings of some migrations, each under an empty line. -/
def spacedListings (ps : List Planned) : List String :=
  ps.flatMap fun p => "" :: p.listing

/-- The listings of some migrations, parted by empty lines. -/
def listings : List Planned → List String
  | [] => []
  | p :: rest => p.listing ++ spacedListings rest

theorem spacedListings_cons (p : Planned) (rest : List Planned) :
    spacedListings (p :: rest) = "" :: listings (p :: rest) := rfl

end SchemaLedger
