/-!
# Well-known tags

The tags that the drawing tool gives to every element of a kind, and a few conventional
ones. Styles are attached to them.
-/
namespace C4.Tag

def element := "Element"
def person := "Person"
def softwareSystem := "Software System"
def container := "Container"
def component := "Component"
def deploymentNode := "Deployment Node"
def infrastructureNode := "Infrastructure Node"
def containerInstance := "Container Instance"
def enterprise := "Enterprise"
def healthCheck := "Health Check"
def group := "Group"
def dynamic := "Dynamic"
def relationship := "Relationship"
def synchronous := "synchronous"
def asynchronous := "asynchronous"
def internal := "Internal"
def external := "External"
def database := "Database"
def queue := "Queue"

def wellKnown : List String :=
  [element, person, softwareSystem, container, component, deploymentNode, infrastructureNode,
    containerInstance, enterprise, healthCheck, group, dynamic, relationship, synchronous,
    asynchronous, internal, external, database, queue]

end C4.Tag
