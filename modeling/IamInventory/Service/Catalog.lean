import IamInventory.Service.Answer

/-!
# The catalog — what the service can be asked

  Every action of the service is listed here. The answers of some actions come in pages, each of
  which holds items under one main name or more; these actions are the listings. What is in no list
  cannot be asked of the service at all.

* **`Action.isKnown`** — whether the service knows an action.
* **`Action.mainItems?`** — under which name the answers of a listing hold their main items.
-/

namespace IamInventory.Catalog

/-- The listings, each with the name of its main items. -/
def listings : List (String × String) :=
  [("get_account_authorization_details", "UserDetailList"),
   ("get_group", "Users"),
   ("list_access_keys", "AccessKeyMetadata"),
   ("list_account_aliases", "AccountAliases"),
   ("list_attached_group_policies", "AttachedPolicies"),
   ("list_attached_role_policies", "AttachedPolicies"),
   ("list_attached_user_policies", "AttachedPolicies"),
   ("list_entities_for_policy", "PolicyGroups"),
   ("list_group_policies", "PolicyNames"),
   ("list_groups", "Groups"),
   ("list_groups_for_user", "Groups"),
   ("list_instance_profile_tags", "Tags"),
   ("list_instance_profiles", "InstanceProfiles"),
   ("list_instance_profiles_for_role", "InstanceProfiles"),
   ("list_mfa_device_tags", "Tags"),
   ("list_mfa_devices", "MFADevices"),
   ("list_open_id_connect_provider_tags", "Tags"),
   ("list_policies", "Policies"),
   ("list_policy_tags", "Tags"),
   ("list_policy_versions", "Versions"),
   ("list_role_policies", "PolicyNames"),
   ("list_role_tags", "Tags"),
   ("list_roles", "Roles"),
   ("list_saml_provider_tags", "Tags"),
   ("list_server_certificate_tags", "Tags"),
   ("list_server_certificates", "ServerCertificateMetadataList"),
   ("list_signing_certificates", "Certificates"),
   ("list_ssh_public_keys", "SSHPublicKeys"),
   ("list_user_policies", "PolicyNames"),
   ("list_user_tags", "Tags"),
   ("list_users", "Users"),
   ("list_virtual_mfa_devices", "VirtualMFADevices"),
   ("simulate_custom_policy", "EvaluationResults"),
   ("simulate_principal_policy", "EvaluationResults")]

/-- The listings that hold items under further names, with these names. -/
def furtherItems : List (String × List String) :=
  [("get_account_authorization_details", ["GroupDetailList", "RoleDetailList", "Policies"]),
   ("list_entities_for_policy", ["PolicyUsers", "PolicyRoles"])]

/-- The actions that are no listings. -/
def others : List String :=
  ["accept_delegation_request",
   "acquire_role",
   "add_client_id_to_open_id_connect_provider",
   "add_role_to_instance_profile",
   "add_user_to_group",
   "associate_delegation_request",
   "attach_group_policy",
   "attach_role_policy",
   "attach_user_policy",
   "change_password",
   "create_access_key",
   "create_account_alias",
   "create_delegation_request",
   "create_group",
   "create_instance_profile",
   "create_login_profile",
   "create_open_id_connect_provider",
   "create_policy",
   "create_policy_version",
   "create_role",
   "create_saml_provider",
   "create_service_linked_role",
   "create_service_specific_credential",
   "create_user",
   "create_virtual_mfa_device",
   "deactivate_mfa_device",
   "delete_access_key",
   "delete_account_alias",
   "delete_account_password_policy",
   "delete_group",
   "delete_group_policy",
   "delete_instance_profile",
   "delete_login_profile",
   "delete_open_id_connect_provider",
   "delete_policy",
   "delete_policy_version",
   "delete_role",
   "delete_role_permissions_boundary",
   "delete_role_policy",
   "delete_saml_provider",
   "delete_server_certificate",
   "delete_service_linked_role",
   "delete_service_specific_credential",
   "delete_signing_certificate",
   "delete_ssh_public_key",
   "delete_user",
   "delete_user_permissions_boundary",
   "delete_user_policy",
   "delete_virtual_mfa_device",
   "detach_group_policy",
   "detach_role_policy",
   "detach_user_policy",
   "disable_organizations_root_credentials_management",
   "disable_organizations_root_sessions",
   "disable_outbound_web_identity_federation",
   "enable_mfa_device",
   "enable_organizations_root_credentials_management",
   "enable_organizations_root_sessions",
   "enable_outbound_web_identity_federation",
   "generate_credential_report",
   "generate_organizations_access_report",
   "generate_service_last_accessed_details",
   "get_access_key_last_used",
   "get_account_password_policy",
   "get_account_properties",
   "get_account_summary",
   "get_context_keys_for_custom_policy",
   "get_context_keys_for_principal_policy",
   "get_credential_report",
   "get_delegation_request",
   "get_group_policy",
   "get_human_readable_summary",
   "get_instance_profile",
   "get_login_profile",
   "get_mfa_device",
   "get_open_id_connect_provider",
   "get_organizations_access_report",
   "get_outbound_web_identity_federation_info",
   "get_policy",
   "get_policy_version",
   "get_role",
   "get_role_policy",
   "get_role_template_version",
   "get_saml_provider",
   "get_server_certificate",
   "get_service_last_accessed_details",
   "get_service_last_accessed_details_with_entities",
   "get_service_linked_role_deletion_status",
   "get_ssh_public_key",
   "get_user",
   "get_user_policy",
   "list_delegation_requests",
   "list_open_id_connect_providers",
   "list_organizations_features",
   "list_policies_granting_service_access",
   "list_saml_providers",
   "list_service_specific_credentials",
   "put_account_properties",
   "put_group_policy",
   "put_role_permissions_boundary",
   "put_role_policy",
   "put_user_permissions_boundary",
   "put_user_policy",
   "reject_delegation_request",
   "remove_client_id_from_open_id_connect_provider",
   "remove_role_from_instance_profile",
   "remove_user_from_group",
   "reset_service_specific_credential",
   "resync_mfa_device",
   "send_delegation_token",
   "set_default_policy_version",
   "set_security_token_service_preferences",
   "tag_instance_profile",
   "tag_mfa_device",
   "tag_open_id_connect_provider",
   "tag_policy",
   "tag_role",
   "tag_saml_provider",
   "tag_server_certificate",
   "tag_user",
   "untag_instance_profile",
   "untag_mfa_device",
   "untag_open_id_connect_provider",
   "untag_policy",
   "untag_role",
   "untag_saml_provider",
   "untag_server_certificate",
   "untag_user",
   "update_access_key",
   "update_account_password_policy",
   "update_assume_role_policy",
   "update_delegation_request",
   "update_group",
   "update_login_profile",
   "update_open_id_connect_provider_thumbprint",
   "update_role",
   "update_role_description",
   "update_saml_provider",
   "update_server_certificate",
   "update_service_specific_credential",
   "update_signing_certificate",
   "update_ssh_public_key",
   "update_user",
   "upload_server_certificate",
   "upload_signing_certificate",
   "upload_ssh_public_key"]

end IamInventory.Catalog

namespace IamInventory.Action

/-- **Under which name the answers of a listing hold their main items**; nothing if the answers do
    not come in pages. -/
def mainItems? (a : Action) : Option String := Catalog.listings.lookup a.name

/-- Under which further names the answers of a listing hold items. -/
def furtherItems (a : Action) : List String := (Catalog.furtherItems.lookup a.name).getD []

/-- **Whether the service knows an action.** -/
def isKnown (a : Action) : Bool := a.mainItems?.isSome || Catalog.others.contains a.name

end IamInventory.Action
