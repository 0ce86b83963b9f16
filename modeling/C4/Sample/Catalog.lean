import C4.Sample.AdvancedStyling
import C4.Sample.FilteredViews
import C4.Sample.GettingStarted
import C4.Sample.Microservices
import C4.Sample.OnlineBanking

/-!
# The samples by name
-/
namespace C4.Sample

def catalog : List (String × Except ModelError Workspace) :=
  [("getting-started", gettingStarted),
    ("big-bank-deployment", onlineBanking),
    ("filtered-views", filteredViews),
    ("advanced-styling", advancedStyling),
    ("microservices", microservices)]

def names : List String := catalog.map (·.1)

def byName? (name : String) : Option (Except ModelError Workspace) := catalog.lookup name

end C4.Sample
